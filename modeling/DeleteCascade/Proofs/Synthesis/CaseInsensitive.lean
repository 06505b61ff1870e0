import DeleteCascade.Proofs.Ownership.Precedence
import DeleteCascade.Proofs.Synthesis.Detaching
import DeleteCascade.Proofs.Synthesis.Respelled
import DeleteCascade.Proofs.Synthesis.Roots
/-!
# Programs — spelling never matters

Identifiers are compared without regard to letter case in many places, each of
them on its own. Together they come to this: if each occurrence of a name in the
schema, in the ownership records and in the root is spelled as it likes, a
synthesis fails for the same kind of reason or makes functions of the same names
in the same order, which do the same (`synthesize_respelled`).

The visit takes the same steps in both spellings, with registries that stay
together. Cutting the loops comes to cutting each function once, and what it goes
by are the calls, which are the same, and whether a column may be NULL.
-/

namespace DeleteCascade

/-! ## The visit -/

namespace Registry.Respelled

variable {r r' : Registry}

theorem reserveAll (h : r.Respelled r') {ts ts' : List TableName} (hts : SameTables ts ts') :
    EndAlike (fun _ _ => True) Registry.Respelled (r.reserveAll ts) (r'.reserveAll ts') := by
  induction hts generalizing r r' with
  | nil => exact .ok h
  | cons ht _ ih =>
    unfold Registry.reserveAll
    with_reducible refine EndAlike.casesOn (h.reserve ht) (fun he => .error he) fun hxy => ?_
    exact ih hxy.2

end Registry.Respelled

namespace Setting.Respelled

variable {s s' : Setting} (h : s.Respelled s') {t t' : TableName} {r r' : Registry}
variable {notes notes' : List String} {pending pending' rest rest' : List TableName}
include h

theorem write (hr : r.Respelled r') (ht : t.same t') (notes notes' : List String) :
    EndAlike SynthesisError.SameKind (fun x x' => x.1.Respelled x'.1 ∧ SameTables x.2.2 x'.2.2)
      (s.write r notes t) (s'.write r' notes' t') := by
  obtain ⟨hmentions, houtcome⟩ := h.draft ht
  -- tables are given their names as they are mentioned, before it is known how the draft ends
  unfold Setting.write
  dsimp only
  have hreserved := hr.reserveAll hmentions
  with_reducible refine EndAlike.casesOn hreserved (fun _ => .error .names) fun {r₁ r₁'} hr₁ => ?_
  dsimp only
  with_reducible refine EndAlike.casesOn houtcome (fun he => .error he) fun {x x'} hx => ?_
  refine .ok ⟨hr₁.complete ht hx.1 ?_, List.rel_flatMap hx.2 fun _ _ hb => hb.callees⟩
  exact List.rel_map (fun _ _ hb => hb.map fun _ _ hu => hr₁.callee hu) hx.2

/-- One step of a visit is the same in both spellings, if what follows it is. -/
theorem visit_step (hr : r.Respelled r') (ht : t.same t')
    (hdrop : ∀ r₁ r₁', r.beginVisit t = .ok (false, r₁) → r₁.Respelled r₁' →
      EndAlike SynthesisError.SameKind (fun x x' => x.registry.Respelled x'.registry)
        (s.visit rest r₁ notes) (s'.visit rest' r₁' notes'))
    (hgo : ∀ r₁ r₂ r₂' ns ns' called called', r.beginVisit t = .ok (true, r₁) →
      s.write r₁ notes t = .ok (r₂, ns, called) → r₂.Respelled r₂' → SameTables called called' →
        EndAlike SynthesisError.SameKind (fun x x' => x.registry.Respelled x'.registry)
          (s.visit (called ++ rest) r₂ ns) (s'.visit (called' ++ rest') r₂' ns')) :
    EndAlike SynthesisError.SameKind (fun x x' => x.registry.Respelled x'.registry)
      (s.visit (t :: rest) r notes) (s'.visit (t' :: rest') r' notes') := by
  have hbegins := hr.beginVisit ht
  rw [visit_cons, visit_cons]
  generalize r.beginVisit t = begun, r'.beginVisit t' = begun' at hbegins hdrop hgo ⊢
  cases hbegins with
  | error he => exact .error .names
  | @ok x x' hx =>
    obtain ⟨begins, r₁⟩ := x
    obtain ⟨begins', r₁'⟩ := x'
    obtain ⟨heq, hr₁⟩ := hx
    dsimp only at heq hr₁
    subst heq
    cases begins with
    | false => exact hdrop r₁ r₁' rfl hr₁
    | true =>
      have hwrites := h.write hr₁ ht notes notes'
      dsimp only
      generalize hw : s.write r₁ notes t = written, s'.write r₁' notes' t' = written' at hwrites ⊢
      cases hwrites with
      | error he => exact .error he
      | @ok y y' hy =>
        obtain ⟨r₂, ns, called⟩ := y
        obtain ⟨r₂', ns', called'⟩ := y'
        exact hgo r₁ r₂ r₂' ns ns' called called' rfl hw hy.1 hy.2

/-- **A visit takes the same steps in both spellings.** -/
theorem visit (hpending : SameTables pending pending') (hr : r.Respelled r') :
    EndAlike SynthesisError.SameKind (fun x x' => x.registry.Respelled x'.registry)
      (s.visit pending r notes) (s'.visit pending' r' notes') := by
  -- the cases are those of the visit from `s`; `visit_step` takes the same step from `s'`, and
  -- the cases it excludes contradict what `s` did
  induction pending, r, notes using Setting.visit.induct (s := s)
    generalizing pending' r' notes' with
  | case1 r notes =>
    cases hpending
    rw [Setting.visit, Setting.visit]
    exact .ok hr
  | case2 r notes t rest e hbegun =>
    obtain ⟨t', rest', ht, hrest, rfl⟩ := List.forall₂_cons_left_iff.1 hpending
    refine h.visit_step hr ht (fun _ _ hb => ?_) (fun _ _ _ _ _ _ _ hb => ?_) <;>
      rw [hbegun] at hb <;> cases hb
  | case3 r notes t rest r₁ hbegun ih =>
    obtain ⟨t', rest', ht, hrest, rfl⟩ := List.forall₂_cons_left_iff.1 hpending
    refine h.visit_step hr ht (fun _ _ hb hr₁ => ?_) (fun _ _ _ _ _ _ _ hb => ?_) <;>
      rw [hbegun] at hb <;> cases hb
    exact ih hrest hr₁
  | case4 r notes t rest r₁ hbegun e hwritten =>
    obtain ⟨t', rest', ht, hrest, rfl⟩ := List.forall₂_cons_left_iff.1 hpending
    refine h.visit_step hr ht (fun _ _ hb => ?_) (fun _ _ _ _ _ _ _ hb hw => ?_) <;>
      rw [hbegun] at hb <;> cases hb
    rw [hwritten] at hw
    cases hw
  | case5 r notes t rest r₁ hbegun r₂ ns called hwritten ih =>
    obtain ⟨t', rest', ht, hrest, rfl⟩ := List.forall₂_cons_left_iff.1 hpending
    refine h.visit_step hr ht (fun _ _ hb => ?_) (fun _ _ _ _ _ _ _ hb hw hr₂ hcalled => ?_) <;>
      rw [hbegun] at hb <;> cases hb
    rw [hwritten] at hw
    cases hw
    exact ih (List.rel_append hcalled hrest) hr₂

end Setting.Respelled

/-! ## Cutting the loops -/

namespace Registry

variable {r r' : Registry} {t t' u u' target target' : TableName} {a a' : Call}

theorem Respelled.callsOf (h : r.Respelled r') (ha : sameCall a a') :
    List.Forall₂ (fun b b' => sameCall b b') (r.callsOf a) (r'.callsOf a') := by
  simp only [sameCall, Bool.and_eq_true, beq_iff_eq] at ha
  unfold Registry.callsOf
  rw [ha.2]
  with_reducible refine Option.Rel.casesOn (h.get? ha.1) (fun hf => ?_) .nil
  refine List.rel_map (fun x y hxy => ?_) (hf.calls a'.2)
  simp [sameCall, hxy.1.table, hxy.2]

/-- A call leads to a function in every registry that makes the calls of this
one, in some spelling. -/
theorem Reaches.of_calls (hreaches : r.Reaches target a) (ht : target.same target')
    (hcalls : ∀ a a', sameCall a a' → ∀ b ∈ r.callsOf a, ∃ b' ∈ r'.callsOf a', sameCall b b')
    (ha : sameCall a a') : r'.Reaches target' a' := by
  induction hreaches generalizing a' with
  | here same =>
    simp only [sameCall, Bool.and_eq_true] at ha
    exact .here (TableName.same_trans (TableName.same_symm ha.1) (TableName.same_trans same ht))
  | step calls _ ih =>
    obtain ⟨b', hb', hbb'⟩ := hcalls _ _ ha _ calls
    exact .step hb' (ih hbb')

/-- **Calls by an owner lead to the same functions in both spellings.** -/
theorem Respelled.ownerCallReaches (h : r.Respelled r') (hu : u.same u') (ht : t.same t') :
    r.ownerCallReaches u t = r'.ownerCallReaches u' t' := by
  have hcomm (a b : Call) : sameCall a b = sameCall b a := by
    rw [sameCall, sameCall, TableName.same_comm, Bool.beq_comm]
  have hstart : sameCall (u, .fromOwner) (u', .fromOwner) := by simp [sameCall, hu]
  -- the searches may run through the calls in different ways, the relation they decide is one
  rw [Bool.eq_iff_iff, ownerCallReaches_iff, ownerCallReaches_iff]
  constructor
  · intro hreaches
    exact hreaches.of_calls ht (fun _ _ ha _ hb => exists_of_forall₂ (h.callsOf ha) hb) hstart
  · intro hreaches
    rw [hcomm] at hstart
    refine hreaches.of_calls (TableName.same_symm ht) (fun a' a ha b' hb' => ?_) hstart
    rw [hcomm] at ha
    obtain ⟨b, hb, hbb'⟩ := exists_of_forall₂ (h.callsOf ha).flip hb'
    exact ⟨b, hb, hcomm b b' ▸ hbb'⟩

end Registry

namespace Setting

/-- After a visit the loops can be cut: what enters a table was asked before. -/
theorem exists_cutCycles {s : Setting} {namer : Namer} {root : TableName} {visited : Synthesis}
    (h : s.visit [root] (.new namer) [] = .ok visited) :
    ∃ cut, s.cutCycles visited.registry visited.notes = .ok cut := by
  have hincoming : ∀ t ∈ visited.registry.functions.map (·.table),
      ∃ is, s.schema.incoming t = .ok is := by
    intro t ht
    obtain ⟨f, hf, rfl⟩ := List.mem_map.1 ht
    obtain ⟨t, drafted, callee, hd, -⟩ := drafts_of_visit h hf
    obtain ⟨parts, children, subtypes, targets, parent, hsections, -⟩ :=
      sections_of_body (body_of_draft hd.draft)
    obtain ⟨is, his, -⟩ := hsections.entering
    exact ⟨is, Schema.incoming_congr hd.table his⟩
  unfold cutCycles
  -- only what enters a table is asked for, whatever has been cut before
  generalize (visited.registry, visited.notes) = state
  generalize visited.registry.functions.map (·.table) = ts at hincoming ⊢
  induction ts generalizing state with
  | nil => exact ⟨state, rfl⟩
  | cons t ts ih =>
    obtain ⟨is, his⟩ := hincoming t List.mem_cons_self
    obtain ⟨next, hnext⟩ : ∃ next, s.cutTable state t = .ok next := by
      unfold cutTable
      dsimp only
      rw [his]
      split
      · exact ⟨_, rfl⟩
      · split <;> exact ⟨_, rfl⟩
    rw [List.foldlM_cons, hnext]
    exact ih next fun u hu => hincoming u (List.mem_cons_of_mem t hu)

variable {s s' : Setting} {t t' : TableName} {r r' : Registry} {f f' : DeleteFunction}
variable {is is' : List Incoming} {b b' : Block Callee}

/-- A block is cut in both spellings or in none, if its column may be NULL in
both or in none. -/
theorem respelled_cutBlock (hr : r.Respelled r') (ht : t.same t')
    (hb : b.Respelled Callee.Respelled b')
    (hnull : ∀ c c', b = .childCascade c → b' = .childCascade c' → c.Respelled Callee.Respelled c' →
      (referenceOf? is c).any (·.nullable) = (referenceOf? is' c').any (·.nullable)) :
    (cutBlock r t is b).Respelled Callee.Respelled (cutBlock r' t' is' b') := by
  cases hb with
  | @childCascade c c' hc =>
    have hback : leadsBack r t (.childCascade c) = leadsBack r' t' (.childCascade c') := by
      simp only [leadsBack, hc.detach, hr.ownerCallReaches hc.callee.table ht]
    simp only [cutBlock, hback, hnull c c' rfl rfl hc]
    split
    · exact .childCascade ⟨hc.child, hc.childKey, hc.column, rfl, hc.ownerCheck, hc.callee⟩
    · exact .childCascade hc
  | selfParts h => exact .selfParts h
  | bridgeCascade h => exact .bridgeCascade h
  | subtypeDispatch h => exact .subtypeDispatch h
  | localDelete h => exact .localDelete h
  | referencedCleanup h => exact .referencedCleanup h
  | parentCascade h => exact .parentCascade h

/-- **A function is cut alike in both spellings.** -/
theorem Respelled.cutFunction (h : s.Respelled s') (hr : r.Respelled r') (hf : f.Respelled f')
    {drafted drafted' : List (Block TableName)} {callee callee' : TableName → Callee}
    (hd : s.Drafts f t drafted callee) (hd' : s'.Drafts f' t' drafted' callee') :
    (s.cutFunction r f).Respelled (s'.cutFunction r' f') := by
  refine ⟨hf.table, hf.name, hf.keyColumn, ?_⟩
  refine List.rel_map (fun b b' hb => ?_) (forall₂_mem hf.blocks)
  obtain ⟨hmem, hmem', hb⟩ := hb
  refine respelled_cutBlock hr hf.table hb fun c c' hc hc' hcc' => ?_
  subst hc
  subst hc'
  obtain ⟨ref, href, hnull⟩ := hd.exists_reference hmem
  obtain ⟨ref', href', hnull'⟩ := hd'.exists_reference hmem'
  rw [href, href', Option.any_some, Option.any_some, hnull, hnull',
    h.schema.isNullable hcc'.child hcc'.column]

section Synthesized

variable {namer : Namer} {root root' : TableName} {visited visited' : Synthesis}
variable {cut cut' : Registry} {notes notes' : List String}

/-- The functions of both spellings go together after they are cut as they do
before. -/
theorem Respelled.functions_cutCycles (h : s.Respelled s')
    (hvisit : s.visit [root] (.new namer) [] = .ok visited)
    (hvisit' : s'.visit [root'] (.new namer) [] = .ok visited')
    (hvisited : visited.registry.Respelled visited'.registry)
    (hcut : s.cutCycles visited.registry visited.notes = .ok (cut, notes))
    (hcut' : s'.cutCycles visited'.registry visited'.notes = .ok (cut', notes')) :
    List.Forall₂ DeleteFunction.Respelled cut.functions cut'.functions := by
  have hsound := visit_keeps (P := s.Sound) (fun h hr => h.beginVisit hr)
    (fun h hr => h.write hr) [root] (.new namer) hvisit
  have hsound' := visit_keeps (P := s'.Sound) (fun h hr => h.beginVisit hr)
    (fun h hr => h.write hr) [root'] (.new namer) hvisit'
  rw [Setting.functions_cutCycles hsound.distinct hcut,
    Setting.functions_cutCycles hsound'.distinct hcut']
  refine List.rel_map (fun f f' hf => ?_) (forall₂_mem hvisited.functions)
  obtain ⟨hmem, hmem', hf⟩ := hf
  obtain ⟨t, drafted, callee, hd, -⟩ := drafts_of_visit hvisit hmem
  obtain ⟨t', drafted', callee', hd', -⟩ := drafts_of_visit hvisit' hmem'
  exact h.cutFunction hvisited hf hd hd'

end Synthesized

end Setting

/-! ## Syntheses -/

/-- **One script in two spellings**: the functions have the same names in the
same order, and each two of them do the same. -/
structure Synthesis.Respelled (x x' : Synthesis) : Prop where
  names : x.registry.names = x'.registry.names
  functions : List.Forall₂ DeleteFunction.Respelled x.registry.functions x'.registry.functions

/-- A synthesis ends alike from two spellings of one setting. -/
theorem Setting.Respelled.synthesize {s s' : Setting} (h : s.Respelled s') (namer : Namer)
    {root root' : TableName} (hroot : root.same root') :
    EndAlike SynthesisError.SameKind Synthesis.Respelled (s.synthesize namer root)
      (s'.synthesize namer root') := by
  have hvisits : EndAlike SynthesisError.SameKind (fun x x' => x.registry.Respelled x'.registry)
      (s.visit [root] (.new namer) []) (s'.visit [root'] (.new namer) []) :=
    h.visit (.cons hroot .nil) (.new namer)
  unfold Setting.synthesize
  generalize hvisit : s.visit [root] (.new namer) [] = x,
    hvisit' : s'.visit [root'] (.new namer) [] = x' at hvisits ⊢
  cases hvisits with
  | error he => exact .error he
  | @ok visited visited' hvisited =>
    obtain ⟨⟨cut, notes⟩, hcut⟩ := exists_cutCycles hvisit
    obtain ⟨⟨cut', notes'⟩, hcut'⟩ := exists_cutCycles hvisit'
    have hfunctions := h.functions_cutCycles hvisit hvisit' hvisited hcut hcut'
    dsimp only
    rw [hcut, hcut']
    refine .ok ⟨?_, hfunctions⟩
    rw [Registry.names, Registry.names, ← List.forall₂_eq_eq_eq, List.forall₂_map_left_iff,
      List.forall₂_map_right_iff]
    exact hfunctions.imp fun _ _ hf => hf.name

/-- **Spelling never matters.** However the names in a schema, in ownership
records and in the root are spelled, each occurrence on its own, a synthesis
fails for the same kind of reason or makes the same functions, up to the spelling
inside them. -/
theorem synthesize_respelled {g g' : Schema} {records records' : List OwnershipRecord}
    {root root' : TableName} (hg : g.Respelled g')
    (hrecords : List.Forall₂ OwnershipRecord.Respelled records records') (explicitOnly : Bool)
    {discriminator discriminator' : String} (hdisc : sameName discriminator discriminator')
    (namer : Namer) (hroot : root.same root') :
    EndAlike SynthesisError.SameKind Synthesis.Respelled
      (Setting.synthesize ⟨g, .ofRecords records explicitOnly, discriminator⟩ namer root)
      (Setting.synthesize ⟨g', .ofRecords records' explicitOnly, discriminator'⟩ namer root') := by
  have h : Setting.Respelled ⟨g, .ofRecords records explicitOnly, discriminator⟩
      ⟨g', .ofRecords records' explicitOnly, discriminator'⟩ :=
    ⟨hg, Classifier.respelled_ofRecords hrecords explicitOnly, hdisc⟩
  exact h.synthesize namer hroot

/-- Flats and tenants, with every name spelled anew where it occurs. -/
def unevenTenancy : Setting where
  schema := ⟨"City",
    [{ name := ⟨"CITY", "Flat"⟩
       columns := [⟨"ID", "bigint", false⟩, ⟨"Tenant", "bigint", true⟩]
       primaryKey := ["Id"]
       foreignKeys := [⟨"flat_tenant_fk", ⟨"city", "FLAT"⟩, ["TENANT"], ⟨"City", "tenanT"⟩, ["iD"],
         .noAction⟩]
       classes := [] },
     { name := ⟨"cITY", "TENANT"⟩
       columns := [⟨"Id", "bigint", false⟩, ⟨"fLAT", "bigint", true⟩]
       primaryKey := ["ID"]
       foreignKeys := [⟨"tenant_flat_fk", ⟨"CITY", "Tenant"⟩, ["Flat"], ⟨"city", "flaT"⟩, ["id"],
         .noAction⟩]
       classes := [] }], []⟩
  classifier := .ofRecords [⟨"FLAT", "tenant", some "Tenant", .composition⟩,
    ⟨"Tenant", "FLAT", some "FLAT", .composition⟩] true
  discriminator := "class"

/-- In both spellings tenants get the same function, whose cascade to flats is
cut. -/
theorem synthesize_respelled_tenancy : ∃ result result',
    tenancy.synthesize (.new "del_" 63) ⟨"city", "flat"⟩ = .ok result ∧
      unevenTenancy.synthesize (.new "del_" 63) ⟨"City", "FLAT"⟩ = .ok result' ∧
      result.Respelled result' ∧ ∃ f' ∈ result'.registry.functions, f'.name = "del_tenant" ∧
        ∃ c, .childCascade c ∈ f'.blocks ∧ c.child.same ⟨"city", "flat"⟩ ∧ c.detach = true := by
  have hends : EndAlike SynthesisError.SameKind Synthesis.Respelled
      (tenancy.synthesize (.new "del_" 63) ⟨"city", "flat"⟩)
      (unevenTenancy.synthesize (.new "del_" 63) ⟨"City", "FLAT"⟩) :=
    synthesize_respelled (g := tenancy.schema) (by decide +kernel) (by decide +kernel) true
      (sameName_refl "class") (.new "del_" 63) (by decide +kernel)
  obtain ⟨result, f, -, hsyn, hf, -, htable, hname, hcut⟩ :=
    exists_tenantFunction ("del_", ⟨"city", "flat"⟩) (by simp)
  rw [hsyn] at hends
  generalize unevenTenancy.synthesize (.new "del_" 63) ⟨"City", "FLAT"⟩ = x' at hends ⊢
  cases hends with
  | @ok _ result' hresult =>
    obtain ⟨f', hf', hff'⟩ := exists_of_forall₂ hresult.functions hf
    obtain ⟨b', hb', hbb'⟩ := exists_of_forall₂ hff'.blocks hcut
    cases hbb' with
    | childCascade hc =>
      exact ⟨result, result', hsyn, rfl, hresult, f', hf', by rw [← hff'.name, hname]; rfl, _, hb',
        TableName.same_symm hc.child, hc.detach.symm⟩

end DeleteCascade
