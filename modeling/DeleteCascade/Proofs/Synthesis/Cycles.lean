import DeleteCascade.Proofs.Synthesis.Program
import Mathlib.Logic.Relation
/-!
# Programs — calls that come back

A function may come to call itself again. Before some calls the store has
lost something, and those cannot go on for ever; the others are the `Leads`
of a program. They come back to no function (`not_transGen_leads`), if no
table is above itself by subtypes and no remark was left on a link that
cannot be cut: a cascade to children that leads back was cut, since the
search for the calls that lead back misses none (`not_reaches_of_search`).
-/

namespace DeleteCascade

namespace Registry

variable {r r' : Registry} {t target : TableName} {a b : Call} {pending seen : List Call}

/-! ## Following the search -/

/-- A search, followed for some steps. -/
def searchFor : Nat → Registry → TableName → List Call → List Call → Bool
  | 0, r, target, pending, seen => r.search target pending seen
  | _ + 1, _, _, [], _ => false
  | n + 1, r, target, call :: rest, seen =>
    if call.1.same target then true
    else if seen.any (sameCall call) then searchFor n r target rest seen
    else
      match r.get? call.1 with
      | none => searchFor n r target rest seen
      | some _ => searchFor n r target (r.callsOf call ++ rest) (call :: seen)

/-- However long it is followed, the rest is a search again. -/
theorem searchFor_eq (n : Nat) : searchFor n = search := by
  funext r target pending seen
  induction n generalizing pending seen with
  | zero => rfl
  | succ n ih =>
    cases pending with
    | nil => rw [searchFor, search]
    | cons call rest =>
      rw [searchFor, search]
      simp only [ih]
      split
      · rfl
      · split
        · rfl
        · rcases r.get? call.1 with _ | f <;> rfl

/-- One step of the search. -/
theorem search_cons (call : Call) (rest : List Call) : r.search target (call :: rest) seen =
    if call.1.same target then true
    else if seen.any (sameCall call) then r.search target rest seen
    else
      match r.get? call.1 with
      | none => r.search target rest seen
      | some _ => r.search target (r.callsOf call ++ rest) (call :: seen) := by
  conv_lhs => rw [← searchFor_eq 1]
  rfl

/-! ## What the search finds -/

/-- **A call leads to a function**, through the calls that it makes. -/
inductive Reaches (r : Registry) (target : TableName) : Call → Prop
  | here {a : Call} (same : a.1.same target) : Reaches r target a
  | step {a b : Call} (calls : b ∈ r.callsOf a) (leads : Reaches r target b) : Reaches r target a

theorem callsOf_congr (h : sameCall a b) : r.callsOf a = r.callsOf b := by
  simp only [sameCall, Bool.and_eq_true, beq_iff_eq] at h
  simp only [callsOf, get?, record?_congr h.1, h.2]

theorem Reaches.congr (h : r.Reaches target a) (hab : sameCall a b) : r.Reaches target b := by
  cases h with
  | here same =>
    simp only [sameCall, Bool.and_eq_true] at hab
    exact .here (TableName.same_trans (TableName.same_symm hab.1) same)
  | step calls leads => exact .step (by rwa [← callsOf_congr hab]) leads

/-- A call that makes no calls leads only to its own function. -/
theorem not_reaches_of_get?_eq_none (hother : a.1.same target = false) (h : r.get? a.1 = none) :
    ¬ r.Reaches target a := by
  rintro (same | ⟨calls, leads⟩)
  · rw [hother] at same
    cases same
  · rw [callsOf, h] at calls
    cases calls

/-- A list names a call, in some spelling. -/
def Names (l : List Call) (a : Call) : Prop := ∃ b ∈ l, sameCall a b

/-- **The search misses nothing.** What was seen is followed up, and when
nothing is pending any more nothing seen leads to the target. -/
theorem not_reaches_of_search (h : r.search target pending seen = false)
    (hseen : ∀ a ∈ seen, a.1.same target = false)
    (hclosed : ∀ a ∈ seen, ∀ b ∈ r.callsOf a, r.Reaches target b → Names (seen ++ pending) b)
    (ha : Names (seen ++ pending) a) : ¬ r.Reaches target a := by
  induction pending, seen using search.induct r target generalizing a with
  | case1 seen =>
    rw [List.append_nil] at ha
    intro hreaches
    induction hreaches with
    | here same =>
      obtain ⟨b, hb, hab⟩ := ha
      simp only [sameCall, Bool.and_eq_true] at hab
      rw [TableName.same_congr_left hab.1, hseen b hb] at same
      cases same
    | step calls leads ih =>
      obtain ⟨b, hb, hab⟩ := ha
      rw [callsOf_congr hab] at calls
      exact ih (by simpa using hclosed b hb _ calls leads)
  | case2 seen call rest hsame =>
    rw [search_cons, if_pos hsame] at h
    cases h
  | case3 seen call rest hother hold ih =>
    rw [search_cons, if_neg hother, if_pos hold] at h
    obtain ⟨c, hc, hcall⟩ := List.any_eq_true.1 hold
    have hdrop {b : Call} (hb : Names (seen ++ call :: rest) b) : Names (seen ++ rest) b := by
      obtain ⟨d, hd, hbd⟩ := hb
      rcases List.mem_append.1 hd with hd | hd
      · exact ⟨d, List.mem_append_left _ hd, hbd⟩
      · rcases List.mem_cons.1 hd with rfl | hd
        · exact ⟨c, List.mem_append_left _ hc, by rw [sameCall_congr_left hbd, hcall]⟩
        · exact ⟨d, List.mem_append_right _ hd, hbd⟩
    exact ih h hseen (fun a ha b hb hreaches => hdrop (hclosed a ha b hb hreaches)) (hdrop ha)
  | case4 seen call rest hother hnew hunknown ih =>
    rw [search_cons, if_neg hother, if_neg hnew, hunknown] at h
    -- the call leads nowhere
    have hdead := not_reaches_of_get?_eq_none (by simpa using hother) hunknown
    have hdrop {b : Call} (hb : Names (seen ++ call :: rest) b) (hreaches : r.Reaches target b) :
        Names (seen ++ rest) b := by
      obtain ⟨d, hd, hbd⟩ := hb
      rcases List.mem_append.1 hd with hd | hd
      · exact ⟨d, List.mem_append_left _ hd, hbd⟩
      · rcases List.mem_cons.1 hd with rfl | hd
        · exact absurd (hreaches.congr hbd) hdead
        · exact ⟨d, List.mem_append_right _ hd, hbd⟩
    intro hreaches
    exact ih h hseen (fun a ha b hb hreaches => hdrop (hclosed a ha b hb hreaches) hreaches)
      (hdrop ha hreaches) hreaches
  | case5 seen call rest hother hnew f hknown ih =>
    rw [search_cons, if_neg hother, if_neg hnew, hknown] at h
    have hmove {b : Call} (hb : Names (seen ++ call :: rest) b) :
        Names (call :: seen ++ (r.callsOf call ++ rest)) b := by
      obtain ⟨d, hd, hbd⟩ := hb
      refine ⟨d, ?_, hbd⟩
      simp only [List.mem_append, List.mem_cons] at hd ⊢
      tauto
    refine ih h (fun a ha => ?_) (fun a ha b hb hreaches => ?_) (hmove ha)
    · rcases List.mem_cons.1 ha with rfl | ha
      · simpa using hother
      · exact hseen a ha
    · rcases List.mem_cons.1 ha with rfl | ha
      · exact ⟨b, by simp [hb], sameCall_refl b⟩
      · exact hmove (hclosed a ha b hb hreaches)

/-- **A call by an owner that does not reach a function does not lead to it.** -/
theorem not_reaches_of_ownerCallReaches (h : r.ownerCallReaches t target = false) :
    ¬ r.Reaches target (t, .fromOwner) :=
  not_reaches_of_search h (by simp) (by simp) ⟨_, by simp, sameCall_refl _⟩

/-! ## What cutting leaves -/

theorem Reaches.of_callsOf (h : r.Reaches target a) (hcalls : ∀ a, r'.callsOf a = r.callsOf a) :
    r'.Reaches target a := by
  induction h with
  | here same => exact .here same
  | step calls _ ih => exact .step (by rwa [hcalls]) ih

theorem Reaches.of_target (h : r.Reaches t a) (ht : t.same target) : r.Reaches target a := by
  induction h with
  | here same => exact .here (TableName.same_trans same ht)
  | step calls _ ih => exact .step calls ih

/-- **No cascade to the children of a function leads back to it**, unless
the children are cut off. -/
def Unlooped (r : Registry) (f : DeleteFunction) : Prop :=
  ∀ c, .childCascade c ∈ f.blocks → c.detach = false →
    ¬ r.Reaches f.table (c.callee.table, .fromOwner)

theorem Unlooped.of_callsOf {f : DeleteFunction} (h : r.Unlooped f)
    (hcalls : ∀ a, r'.callsOf a = r.callsOf a) : r'.Unlooped f :=
  fun c hc hdetach hreaches => h c hc hdetach (hreaches.of_callsOf fun a => (hcalls a).symm)

theorem record?_editBlocks (g : List (Block Callee) → List (Block Callee)) (u : TableName) :
    (r.editBlocks t g).record? u = (r.record? u).map fun e =>
      if e.function.table.same t = true then
        { e with function := { e.function with blocks := g e.function.blocks } }
      else e :=
  record?_modify fun _ => ⟨rfl, rfl⟩

/-- Cutting children off changes no call. -/
theorem callsOf_cutBlocks (r₀ : Registry) (is : List Incoming) (a : Call) :
    (r.editBlocks t fun blocks => blocks.map (Setting.cutBlock r₀ t is)).callsOf a =
      r.callsOf a := by
  have hblock (b : Block Callee) (caller : Caller) :
      (Setting.cutBlock r₀ t is b).calls caller = b.calls caller := by
    rcases Written.cutBlock_eq r₀ t is b with heq | ⟨c, rfl, heq⟩ <;> rw [heq]
    rfl
  unfold callsOf get?
  rw [record?_editBlocks]
  cases r.record? a.1 with
  | none => rfl
  | some e =>
    simp only [Option.map_some]
    split
    · simp only [DeleteFunction.calls, List.flatMap_map, hblock]
    · rfl

/-- Editing bodies leaves the functions with their tables. -/
theorem tables_editBlocks (g : List (Block Callee) → List (Block Callee)) :
    (r.editBlocks t g).functions.map (·.table) = r.functions.map (·.table) := by
  have hvisited : (r.editBlocks t g).visited = r.visited := rfl
  unfold functions
  simp only [List.map_filterMap, hvisited]
  refine congrArg (List.filterMap · r.visited) (funext fun u => ?_)
  rw [record?_editBlocks]
  cases r.record? u with
  | none => rfl
  | some e =>
    simp only [Option.map_some]
    split <;> split <;> rfl

end Registry

namespace Setting

variable {s : Setting} {t : TableName} {r r' : Registry} {notes notes' : List String}
variable {ts done : List TableName}

/-- A cascade that is not cut is as it was. -/
theorem eq_of_cutBlock {is : List Incoming} {c : ChildCascade Callee} {b : Block Callee}
    (hcut : cutBlock r t is b = .childCascade c) (hkept : c.detach = false) :
    b = .childCascade c := by
  rcases Written.cutBlock_eq r t is b with heq | ⟨d, rfl, heq⟩
  · rw [← heq, hcut]
  · rw [hcut, Block.childCascade.injEq] at heq
    rw [heq] at hkept
    cases hkept

/-- **A cascade that is not cut does not lead back**, unless it was remarked
on: the link behind it is one of those that enter the table. -/
theorem leadsBack_of_cutBlock {is : List Incoming} {c : ChildCascade Callee}
    {captured : List String} {u : TableName} (his : s.schema.incoming t = .ok is)
    (hu : u.same t) (hplan : s.Plans u (·.table) notes captured (.childCascade c))
    (hcut : cutBlock r t is (.childCascade c) = .childCascade c) (hkept : c.detach = false)
    (hnone : ∀ ref, cutNote? r t is (.childCascade c) ≠ some (cycleNote ref)) :
    leadsBack r t (.childCascade c) = false := by
  obtain ⟨ref, href⟩ : ∃ ref, referenceOf? is c = some ref := by
    cases hplan with
    | childCascade link other key notKey classified owning callee shared unshared entered =>
      rw [Schema.foreignKeysTo_congr hu] at entered
      obtain ⟨fk, hfk, i, henter, hchild, hcolumn⟩ := entered
      rw [← Option.isSome_iff_exists, referenceOf?, List.find?_isSome]
      exact ⟨i.reference, List.mem_map_of_mem (Schema.mem_incoming his hfk henter),
        by simp [hchild, hcolumn]⟩
  refine Bool.eq_false_iff.2 fun hback => ?_
  cases hnull : ref.nullable with
  | true =>
    rw [cutBlock, if_pos (by simp [hback, href, hnull]), Block.childCascade.injEq] at hcut
    rw [← hcut] at hkept
    cases hkept
  | false => exact hnone ref (by simp [cutNote?, hback, href, hnull])

theorem notes_subset_cutTable (h : s.cutTable (r, notes) t = .ok (r', notes')) :
    notes ⊆ notes' := by
  rcases cutTable_eq_ok h with ⟨-, rfl, -⟩ | ⟨f, is, -, -, -, rfl⟩
  · exact fun _ h => h
  · exact (subset_addNotes _ _).1

theorem tables_cutTable (h : s.cutTable (r, notes) t = .ok (r', notes')) :
    r'.functions.map (·.table) = r.functions.map (·.table) := by
  rcases cutTable_eq_ok h with ⟨rfl, -, -⟩ | ⟨f, is, -, -, rfl, -⟩
  · rfl
  · exact Registry.tables_editBlocks _

/-- The finished functions of these tables do not come back. -/
def Cleared (r : Registry) (ts : List TableName) : Prop :=
  ∀ e ∈ r.records, e.isDone = true → e.function.table.isIn ts → r.Unlooped e.function

/-- Cutting the function of one more table clears it, if nothing was
remarked on. -/
theorem Cleared.cutTable (h : Cleared r ts) (hsound : s.Sound r notes)
    (hr : s.cutTable (r, notes) t = .ok (r', notes')) (hnone : ∀ ref, cycleNote ref ∉ notes') :
    Cleared r' (ts ++ [t]) := by
  have hsplit {u : TableName} (hin : u.isIn (ts ++ [t]) = true) : u.isIn ts ∨ u.same t := by
    simpa [TableName.isIn] using hin
  have hget {e : FunctionRecord} (he : e ∈ r.records) (hsame : e.function.table.same t = true) :
      r.get? t = some e.function := by
    rw [Registry.get?, hsound.distinct.record?_of_mem he hsame, Option.map_some]
  have hclear {e : FunctionRecord} {c : ChildCascade Callee} (hsame : e.function.table.same t)
      (hkept : c.detach = false) (hback : leadsBack r t (.childCascade c) = false) :
      ¬ r.Reaches e.function.table (c.callee.table, .fromOwner) := by
    simp only [leadsBack, hkept, Bool.not_false, Bool.true_and] at hback
    exact fun hreaches =>
      Registry.not_reaches_of_ownerCallReaches hback (hreaches.of_target hsame)
  rcases cutTable_eq_ok hr with ⟨rfl, rfl, hkept⟩ | ⟨f, is, hf, his, rfl, rfl⟩
  · intro e he hd hin
    rcases hsplit hin with hin | hsame
    · exact h e he hd hin
    · exact fun c hc hdetach => hclear hsame hdetach (hkept _ (hget he hsame) _ hc)
  · have hcalls := Registry.callsOf_cutBlocks (r := r) (t := t) r is
    intro g hg hd hin
    obtain ⟨e, he, rfl⟩ := Registry.mem_modify.1 hg
    by_cases hsame : e.function.table.same t = true
    · rw [if_pos hsame] at hd ⊢
      rw [hget he hsame, Option.some.injEq] at hf
      subst hf
      intro c hc hdetach hreaches
      obtain ⟨b, hb, hcut⟩ := List.mem_map.1 hc
      obtain rfl := eq_of_cutBlock hcut hdetach
      obtain ⟨-, captured, front, back, hblocks, hbody⟩ := hsound.body he hd
      have hback := leadsBack_of_cutBlock his hsame (hbody.plans _ (hblocks ▸ hb)) hcut hdetach
        fun ref href => hnone ref ((subset_addNotes _ _).2 (List.mem_filterMap.2 ⟨_, hb, href⟩))
      exact hclear hsame hdetach hback (hreaches.of_callsOf fun a => (hcalls a).symm)
    · rw [if_neg hsame] at hd hin ⊢
      exact (h e he hd ((hsplit hin).resolve_right hsame)).of_callsOf hcalls

/-- Cutting the functions of some tables clears them, if nothing was
remarked on. -/
theorem Cleared.cutTables (h : Cleared r done) (hsound : s.Sound r notes)
    (hr : ts.foldlM s.cutTable (r, notes) = .ok (r', notes'))
    (hnone : ∀ ref, cycleNote ref ∉ notes') : Cleared r' (done ++ ts) := by
  induction ts generalizing r notes done with
  | nil =>
    cases hr
    rwa [List.append_nil]
  | cons t ts ih =>
    rw [List.foldlM_cons] at hr
    cases hstep : s.cutTable (r, notes) t with
    | error e =>
      rw [hstep] at hr
      cases hr
    | ok next =>
      obtain ⟨r₁, notes₁⟩ := next
      rw [hstep] at hr
      have hgrow : notes₁ ⊆ notes' :=
        foldlM_cutTable (P := fun _ ns => notes₁ ⊆ ns)
          (fun hsub hcut => List.Subset.trans hsub (notes_subset_cutTable hcut)) (fun _ h => h) hr
      rw [List.append_cons]
      exact ih (h.cutTable hsound hstep fun ref href => hnone ref (hgrow href))
        (hsound.cutTable hstep) hr

/-- **No function of a synthesis comes back over children that are not cut
off**, if nothing was remarked on. -/
theorem unlooped_of_synthesize {namer : Namer} {root : TableName} {result : Synthesis}
    (h : s.synthesize namer root = .ok result) (hnone : ∀ ref, cycleNote ref ∉ result.notes)
    {f : DeleteFunction} (hf : f ∈ result.registry.functions) : result.registry.Unlooped f := by
  obtain ⟨visited, hvisit, hcut⟩ := synthesize_eq_ok h
  have hsound := visit_keeps (P := s.Sound) (fun h hr => h.beginVisit hr)
    (fun h hr => h.write hr) [root] (.new namer) hvisit
  have hcleared : Cleared visited.registry [] := fun e _ _ hin => by cases hin
  have htables : result.registry.functions.map (·.table) =
      visited.registry.functions.map (·.table) :=
    foldlM_cutTable (P := fun r _ => r.functions.map (·.table) = _)
      (fun hkept hcut => (tables_cutTable hcut).trans hkept) rfl hcut
  obtain ⟨e, he, hd, rfl, -⟩ := Registry.mem_functions hf
  refine (hcleared.cutTables hsound hcut hnone) e he hd ?_
  rw [List.nil_append, TableName.isIn, List.any_eq_true]
  exact ⟨e.function.table, htables ▸ List.mem_map_of_mem hf, TableName.same_refl _⟩

end Setting

/-! ## What a program may call at once -/

/-- Whether the block calls functions while nothing needs to be lost. -/
def Block.stays {κ : Type} : Block κ → Bool
  | childCascade c => !c.detach
  | subtypeDispatch _ => true
  | _ => false

namespace Program

/-- **A function leads to another** if it may call it before the store has
lost anything. -/
def Leads (p : Program) (f g : DeleteFunction) : Prop :=
  ∃ b ∈ f.blocks, b.stays = true ∧ ∃ c ∈ b.callees, p.lookup c.function = some g

/-- The call goes to rows that own nothing of the function's own: to its
children, which are not cut off. -/
def LeadsDown (p : Program) (f g : DeleteFunction) : Prop :=
  ∃ c, .childCascade c ∈ f.blocks ∧ c.detach = false ∧ p.lookup c.callee.function = some g

variable {p : Program} {s : Setting} {notes : List String} {f g : DeleteFunction}

/-- A function leads to its children and to its subtypes. -/
theorem Serves.leads (h : p.Serves s notes f) (hleads : p.Leads f g) :
    p.LeadsDown f g ∨ s.schema.IsSubtype g.table f.table := by
  obtain ⟨b, hb, hstays, c, hc, hg⟩ := hleads
  cases b with
  | childCascade d =>
    simp only [Block.stays, Bool.not_eq_true'] at hstays
    obtain rfl := List.mem_singleton.1 hc
    exact Or.inl ⟨d, hb, hstays, hg⟩
  | subtypeDispatch d =>
    obtain ⟨captured, front, back, hblocks, hbody⟩ := h.body
    have hsame := h.callees c (List.mem_flatMap.2 ⟨_, hb, hc⟩) g hg
    cases hbody.plans _ (hblocks ▸ hb) with
    | subtypeDispatch subtypes =>
      exact Or.inr ((subtypes c hc).congr (TableName.same_symm hsame) (TableName.same_refl _))
  | _ => cases hstays

/-- What leads on is called, whoever calls, save a subtype. -/
theorem exists_call_of_leads (hleads : p.Leads f g) {caller : Caller}
    (hcaller : caller.skipsSubtypes = false) : ∃ c next, (c, next) ∈ f.calls caller ∧
      c ∈ f.callees ∧ p.lookup c.function = some g ∧ next.skipsSubtypes = false := by
  obtain ⟨b, hb, hstays, c, hc, hg⟩ := hleads
  have hcallee : c ∈ f.callees := List.mem_flatMap.2 ⟨b, hb, hc⟩
  cases b with
  | childCascade d =>
    exact ⟨c, .fromOwner, List.mem_flatMap.2 ⟨_, hb, List.mem_map.2 ⟨c, hc, rfl⟩⟩, hcallee, hg, rfl⟩
  | subtypeDispatch d =>
    refine ⟨c, .fromParent, List.mem_flatMap.2 ⟨_, hb, ?_⟩, hcallee, hg, rfl⟩
    simp only [Block.calls, hcaller, Bool.false_eq_true, if_false]
    rcases List.mem_append.1 hc with hc | hc
    · obtain ⟨k, hk, rfl⟩ := List.mem_map.1 hc
      exact List.mem_append_left _ (List.mem_map.2 ⟨k, hk, rfl⟩)
    · exact List.mem_append_right _ (List.mem_map.2 ⟨c, hc, rfl⟩)
  | _ => cases hstays

/-- A chain of calls either goes down to subtypes all the way, or passes
over children. -/
theorem transGen_leads (hserves : ∀ {name f}, p.lookup name = some f → p.Serves s notes f)
    (hf : ∃ name, p.lookup name = some f) (h : Relation.TransGen p.Leads f g) :
    Relation.TransGen (fun t u => s.schema.IsSubtype u t) f.table g.table ∨
      ∃ x y, Relation.ReflTransGen p.Leads f x ∧ p.LeadsDown x y ∧
        Relation.ReflTransGen p.Leads y g := by
  obtain ⟨name, hf⟩ := hf
  induction h with
  | single hleads =>
    rcases (hserves hf).leads hleads with hdown | hsub
    · exact Or.inr ⟨_, _, .refl, hdown, .refl⟩
    · exact Or.inl (.single hsub)
  | tail hchain hleads ih =>
    rename_i x y
    obtain ⟨name', hx⟩ : ∃ name, p.lookup name = some x := by
      cases hchain with
      | single h =>
        obtain ⟨b, -, -, c, -, hx⟩ := h
        exact ⟨_, hx⟩
      | tail _ h =>
        obtain ⟨b, -, -, c, -, hx⟩ := h
        exact ⟨_, hx⟩
    rcases ih with hsub | ⟨u, v, hu, huv, hv⟩
    · rcases (hserves hx).leads hleads with hdown | hsub'
      · exact Or.inr ⟨_, _, hchain.to_reflTransGen, hdown, .refl⟩
      · exact Or.inl (hsub.tail hsub')
    · exact Or.inr ⟨u, v, hu, huv, hv.tail hleads⟩

section Synthesized

variable {namer : Namer} {root : TableName} {result : Synthesis} {depth : Nat} {name : String}

/-- A function that is looked up is the one of its table. -/
theorem get?_of_lookup (h : s.synthesize namer root = .ok result)
    (hf : (Program.mk result.registry.functions depth).lookup name = some f) :
    result.registry.get? f.table = some f := by
  obtain ⟨e, he, -, rfl, -⟩ := Registry.mem_functions (mem_of_lookup hf).1
  have hsound := Setting.sound_of_synthesize h
  rw [Registry.get?, hsound.distinct.record?_of_mem he (TableName.same_refl _), Option.map_some]

/-- The search follows up whatever a function leads to. -/
theorem reaches_of_leads (h : s.synthesize namer root = .ok result)
    (hf : ∃ name, (Program.mk result.registry.functions depth).lookup name = some f)
    (hchain : Relation.ReflTransGen (Program.mk result.registry.functions depth).Leads f g)
    {caller : Caller} (hcaller : caller.skipsSubtypes = false) :
    result.registry.Reaches g.table (f.table, caller) := by
  induction hchain using Relation.ReflTransGen.head_induction_on generalizing caller with
  | refl => exact .here (TableName.same_refl _)
  | head hleads _ ih =>
    obtain ⟨name, hf⟩ := hf
    obtain ⟨c, next, hcall, hcallee, hlookup, hnext⟩ := exists_call_of_leads hleads hcaller
    have hsame := (serves_of_synthesize h hf).callees c hcallee _ hlookup
    have hreaches := ih ⟨_, hlookup⟩ hnext
    refine .step (b := (c.table, next)) ?_ (hreaches.congr ?_)
    · rw [Registry.callsOf, get?_of_lookup h hf]
      exact List.mem_map.2 ⟨_, hcall, rfl⟩
    · simpa [Registry.sameCall] using hsame

/-- **No function leads back to itself**: where subtypes do not go round in
a circle and nothing was remarked on, a function calls itself again only
after the store has lost something. -/
theorem not_transGen_leads (hacyclic : ∀ t, ¬ Relation.TransGen s.schema.IsSubtype t t)
    (h : s.synthesize namer root = .ok result) (hnone : ∀ ref, cycleNote ref ∉ result.notes) :
    ¬ Relation.TransGen (Program.mk result.registry.functions depth).Leads f f := by
  intro hcycle
  obtain ⟨x, -, b, -, -, c, -, hf⟩ := Relation.TransGen.tail'_iff.1 hcycle
  rcases transGen_leads (serves_of_synthesize h) ⟨_, hf⟩ hcycle with hsub | ⟨u, v, hu, hdown, hv⟩
  · exact hacyclic _ (Relation.transGen_swap.1 hsub)
  · obtain ⟨d, hd, hdetach, hlookup⟩ := hdown
    obtain ⟨name, hlook⟩ :
        ∃ name, (Program.mk result.registry.functions depth).lookup name = some u := by
      rcases Relation.ReflTransGen.cases_tail hu with rfl | ⟨w, -, b', -, -, c', -, hu'⟩
      · exact ⟨_, hf⟩
      · exact ⟨_, hu'⟩
    have hsame := (serves_of_synthesize h hlook).callees d.callee
      (List.mem_flatMap.2 ⟨_, hd, List.mem_singleton_self _⟩) v hlookup
    -- the children lead back, by way of the function where the circle starts
    have hback : result.registry.Reaches u.table (v.table, .fromOwner) :=
      reaches_of_leads h ⟨_, hlookup⟩ (hv.trans hu) rfl
    exact Setting.unlooped_of_synthesize h hnone (mem_of_lookup hlook).1 d hd hdetach
      (hback.congr (by simpa [Registry.sameCall] using hsame))

end Synthesized

end Program

end DeleteCascade
