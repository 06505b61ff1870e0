import DeleteCascade.Proofs.Schema.Inheritance
import DeleteCascade.Proofs.Synthesis.Closed
import DeleteCascade.Proofs.Synthesis.Sections
/-!
# Programs — calls along inheritance

A function calls down to the functions of the subtypes of its table, as their
supertype, and up to the function of its supertype, which it leaves out when
that is the one that calls. Down it calls exactly the subtypes
(`callsDown_iff`), up only the supertype that is linked to first
(`callsUp_iff`). So the two are inverse to each other under single inheritance
(`callsDown_iff_callsUp`), and calls down come back to a function exactly where
subtypes go round in a circle (`transGen_callsDown_iff`).
-/

namespace DeleteCascade

namespace DeleteFunction

/-- **A function calls another one down**: as the supertype of its table. -/
def CallsDown (f g : DeleteFunction) : Prop :=
  ∃ c, (c, Caller.fromParent) ∈ f.calls .external ∧ c.function = g.name

/-- **A function calls another one up**: in its parent cascade. -/
def CallsUp (f g : DeleteFunction) : Prop := ∃ c, f.parentCascade? = some c ∧ c.function = g.name

instance (f g : DeleteFunction) : Decidable (f.CallsDown g) :=
  decidable_of_iff (∃ call ∈ f.calls .external, call.2 = .fromParent ∧ call.1.function = g.name)
    ⟨fun ⟨⟨c, _⟩, hc, hcaller, hname⟩ => ⟨c, hcaller ▸ hc, hname⟩,
      fun ⟨_, hc, hname⟩ => ⟨_, hc, rfl, hname⟩⟩

instance (f g : DeleteFunction) : Decidable (f.CallsUp g) :=
  decidable_of_iff (∃ c ∈ f.parentCascade?, c.function = g.name) Iff.rfl

/-- A parent cascade is found if the function has one, and all its parent
cascades are alike. -/
theorem parentCascade?_eq_some {f : DeleteFunction} {c : Callee}
    (hone : ∀ c c', .parentCascade c ∈ f.blocks → .parentCascade c' ∈ f.blocks → c = c') :
    f.parentCascade? = some c ↔ .parentCascade c ∈ f.blocks := by
  have hsome {c : Callee} (h : f.parentCascade? = some c) : .parentCascade c ∈ f.blocks := by
    obtain ⟨b, hb, hc⟩ := List.exists_of_findSome?_eq_some h
    cases b <;> simp_all
  refine ⟨hsome, fun hc => ?_⟩
  cases hfound : f.parentCascade? with
  | none =>
    have hnone := List.findSome?_eq_none_iff.1 hfound _ hc
    cases hnone
  | some c' => rw [hone c' c (hsome hfound) hc]

end DeleteFunction

namespace Block

variable {κ : Type} {b : Block κ} {caller : Caller} {c : κ}

/-- Only a dispatch calls as the supertype. -/
theorem exists_dispatch_of_mem_calls (h : (c, Caller.fromParent) ∈ b.calls caller) :
    ∃ d, b = .subtypeDispatch d := by
  cases b with
  | subtypeDispatch d => exact ⟨d, rfl⟩
  | parentCascade u =>
    simp only [calls] at h
    split at h <;> simp_all
  | _ => simp [calls] at h

/-- Called by a client, a dispatch calls all its subtypes as their supertype. -/
theorem mem_calls_dispatch {d : SubtypeDispatch κ} :
    (c, Caller.fromParent) ∈ (Block.subtypeDispatch d).calls .external ↔
      c ∈ (Block.subtypeDispatch d).callees := by
  simp [calls, callees, Caller.skipsSubtypes]

end Block

namespace Setting

variable {s : Setting} {t u : TableName} {blocks : List (Block TableName)}

/-! ## Drafted bodies -/

/-- **The subtypes of a table are those that hold a reference to it with their
whole key**, in any schema. -/
theorem isSubtype_iff_isIn_keyChildren {is : List Incoming} (his : s.schema.incoming t = .ok is) :
    s.schema.IsSubtype u t ↔ u.isIn (keyChildren is) := by
  constructor
  · rintro ⟨k, hk, hlink, hne⟩
    obtain ⟨i, hi, fk, hres, hchild, hcolumn⟩ := Schema.exists_mem_incoming his hlink hne
    refine isIn_keyChildren.2 ⟨i, hi, ?_, hchild⟩
    exact (Schema.childIsKey_of_resolve hres).2
      ⟨k, by rw [Schema.key?_congr hchild, hk], sameName_symm hcolumn⟩
  · intro hin
    obtain ⟨v, hv, hsame⟩ := TableName.isIn_iff.1 hin
    exact (isSubtype_of_mem_keyChildren his hv).congr (TableName.same_symm hsame)
      (TableName.same_refl _)

/-- **A body calls all subtypes of its table down, and nothing else.** -/
theorem isSubtype_iff_mem_calls (h : (s.body t).outcome = .ok blocks) :
    s.schema.IsSubtype u t ↔
      ∃ v, u.same v ∧ (v, Caller.fromParent) ∈ blocks.flatMap (·.calls .external) := by
  obtain ⟨parts, children, subtypes, targets, parent, hsections, rfl⟩ := sections_of_body h
  obtain ⟨is, his, -, hsubtypes⟩ := hsections.entering
  have hdispatch := dispatch_eq_ok hsubtypes
  rw [isSubtype_iff_isIn_keyChildren his, TableName.isIn_iff]
  refine exists_congr fun v => ?_
  rw [and_comm]
  refine and_congr_right fun _ => ⟨fun hv => ?_, fun hv => ?_⟩
  · rcases hdispatch with ⟨hnone, -⟩ | ⟨classes, d, -, rfl, -⟩
    · rw [hnone] at hv
      cases hv
    · have hcall : (v, Caller.fromParent) ∈ (Block.subtypeDispatch
          ⟨d, typedCases classes (keyChildren is), untyped classes (keyChildren is)⟩).calls .external :=
        Block.mem_calls_dispatch.2 (subset_callees_dispatch hv)
      exact List.mem_flatMap.2 ⟨_, by simp, hcall⟩
  · obtain ⟨b, hb, hcall⟩ := List.mem_flatMap.1 hv
    obtain ⟨d, rfl⟩ := Block.exists_dispatch_of_mem_calls hcall
    have hmem := (hsections.mem_iff hb).2.2.1 rfl
    rcases hdispatch with ⟨-, rfl⟩ | ⟨classes, d', -, rfl, -⟩
    · cases hmem
    · rw [List.mem_singleton.1 hmem] at hcall
      exact callees_dispatch (Block.mem_calls_dispatch.1 hcall)

theorem parentBlock_eq_ok {bs : List (Block TableName)} (h : (s.parentBlock t).outcome = .ok bs) :
    ∃ link, s.schema.parentLink t = .ok link ∧
      bs = (link.map fun r => Block.parentCascade r.parent).toList := by
  obtain ⟨link, hlink, h⟩ := Draft.outcome_bind_eq_ok.1 h
  refine ⟨link, outcome_ask_eq_ok.1 hlink, ?_⟩
  cases link with
  | none =>
    cases h
    rfl
  | some r =>
    obtain ⟨callee, hcallee, h⟩ := Draft.outcome_bind_eq_ok.1 h
    cases hcallee
    cases h
    rfl

/-- **A body cascades to the supertype that its table links to, if any.** -/
theorem parentCascade_mem_iff (h : (s.body t).outcome = .ok blocks) :
    ∃ link, s.schema.parentLink t = .ok link ∧
      ∀ u, Block.parentCascade u ∈ blocks ↔ ∃ r, link = some r ∧ r.parent = u := by
  obtain ⟨parts, children, subtypes, targets, parent, hsections, rfl⟩ := sections_of_body h
  obtain ⟨hparts, hchildren, hsubtypes, hcleanups, -⟩ := hsections.kinds
  obtain ⟨link, hlink, rfl⟩ := parentBlock_eq_ok hsections.parent
  refine ⟨link, hlink, fun u => ?_⟩
  have hnot {bs : List (Block TableName)} {kind : BlockKind} (hbs : ∀ b ∈ bs, b.kind = kind)
      (hkind : kind ≠ .parentCascade) : Block.parentCascade u ∉ bs :=
    fun hmem => hkind (hbs _ hmem).symm
  simp only [List.mem_append, hnot hparts (by decide), hnot hchildren (by decide),
    hnot hsubtypes (by decide), hnot hcleanups (by decide), List.mem_singleton, reduceCtorEq,
    false_or, Option.mem_toList, Option.map_eq_some_iff, Block.parentCascade.injEq]

/-! ## Functions -/

section Functions

variable {namer : Namer} {root : TableName} {result : Synthesis} {f g : DeleteFunction}

/-- Every function of a script is a drafted body. -/
theorem writes_of_synthesize (h : s.synthesize namer root = .ok result)
    (hf : f ∈ result.registry.functions) :
    ∃ t drafted callee w, s.Writes result.notes f t drafted callee w := by
  obtain ⟨e, he, hd, rfl, -⟩ := Registry.mem_functions hf
  exact (sound_of_synthesize h).writes e he hd

theorem Writes.calls {notes : List String} {drafted : List (Block TableName)}
    {callee : TableName → Callee} {w : Block TableName → Block Callee}
    (h : s.Writes notes f t drafted callee w) (caller : Caller) : f.calls caller =
      (drafted.flatMap (·.calls caller)).map fun call => (callee call.1, call.2) := by
  unfold DeleteFunction.calls
  simp only [h.blocks, List.flatMap_map, List.map_flatMap, (h.written _).calls]

/-- **The functions called down are those of the subtypes.** -/
theorem callsDown_iff (h : s.synthesize namer root = .ok result)
    (hf : f ∈ result.registry.functions) (hg : g ∈ result.registry.functions) :
    f.CallsDown g ↔ s.schema.IsSubtype g.table f.table := by
  have hclosed := isClosed_of_synthesize h
  obtain ⟨t, drafted, callee, w, hw⟩ := writes_of_synthesize h hf
  have hbody := body_of_draft hw.draft
  have hcall {c : Callee} (hc : (c, Caller.fromParent) ∈ f.calls .external) : c ∈ f.callees := by
    obtain ⟨b, hb, hcb⟩ := List.mem_flatMap.1 hc
    exact List.mem_flatMap.2 ⟨b, hb, Block.mem_callees_of_mem_calls hcb⟩
  constructor
  · rintro ⟨c, hc, hname⟩
    have hsame := (hclosed.function_eq_iff hf (hcall hc) hg).1 hname
    rw [hw.calls] at hc
    obtain ⟨⟨v, next⟩, hv, heq⟩ := List.mem_map.1 hc
    cases heq
    rw [hw.named] at hsame
    have hsub := (isSubtype_iff_mem_calls hbody).2 ⟨v, hsame, hv⟩
    exact hsub.congr (TableName.same_refl _) hw.table
  · intro hsub
    obtain ⟨v, hsame, hv⟩ := (isSubtype_iff_mem_calls hbody).1
      (hsub.congr (TableName.same_refl _) (TableName.same_symm hw.table))
    have hc : (callee v, Caller.fromParent) ∈ f.calls .external := by
      rw [hw.calls]
      exact List.mem_map.2 ⟨_, hv, rfl⟩
    refine ⟨callee v, hc, (hclosed.function_eq_iff hf (hcall hc) hg).2 ?_⟩
    rwa [hw.named]

theorem Writes.parentCascade_mem {notes : List String} {drafted : List (Block TableName)}
    {callee : TableName → Callee} {w : Block TableName → Block Callee} {c : Callee}
    (h : s.Writes notes f t drafted callee w) :
    .parentCascade c ∈ f.blocks ↔ ∃ u, .parentCascade u ∈ drafted ∧ callee u = c := by
  rw [h.blocks, List.mem_map]
  constructor
  · rintro ⟨b, hb, heq⟩
    have hwritten := h.written b
    rw [heq] at hwritten
    generalize hc : Block.parentCascade c = block at hwritten
    cases hwritten with
    | named b =>
      cases b with
      | parentCascade u =>
        cases hc
        exact ⟨u, hb, rfl⟩
      | _ => cases hc
    | cut b => cases hc
  · rintro ⟨u, hu, rfl⟩
    exact ⟨_, hu, (h.written _).parentCascade⟩

/-- **The function called up is that of the supertype linked to.** -/
theorem callsUp_iff (h : s.synthesize namer root = .ok result)
    (hg : g ∈ result.registry.functions) (hf : f ∈ result.registry.functions) :
    ∃ link, s.schema.parentLink g.table = .ok link ∧
      (g.CallsUp f ↔ ∃ r, link = some r ∧ r.parent.same f.table) := by
  have hclosed := isClosed_of_synthesize h
  obtain ⟨t, drafted, callee, w, hw⟩ := writes_of_synthesize h hg
  obtain ⟨link, hlink, hparent⟩ := parentCascade_mem_iff (body_of_draft hw.draft)
  have hmem {c : Callee} :
      .parentCascade c ∈ g.blocks ↔ ∃ r, link = some r ∧ callee r.parent = c := by
    rw [hw.parentCascade_mem]
    constructor
    · rintro ⟨u, hu, rfl⟩
      obtain ⟨r, hr, rfl⟩ := (hparent u).1 hu
      exact ⟨r, hr, rfl⟩
    · rintro ⟨r, hr, rfl⟩
      exact ⟨r.parent, (hparent _).2 ⟨r, hr, rfl⟩, rfl⟩
  have hone : ∀ c c', .parentCascade c ∈ g.blocks → .parentCascade c' ∈ g.blocks → c = c' := by
    intro c c' hc hc'
    obtain ⟨r, hr, rfl⟩ := hmem.1 hc
    obtain ⟨r', hr', rfl⟩ := hmem.1 hc'
    rw [hr, Option.some.injEq] at hr'
    rw [hr']
  have hcalled {r : Reference} (hr : link = some r) :
      (callee r.parent).function = f.name ↔ r.parent.same f.table := by
    have hc : callee r.parent ∈ g.callees :=
      List.mem_flatMap.2 ⟨_, hmem.2 ⟨r, hr, rfl⟩, List.mem_singleton_self _⟩
    rw [hclosed.function_eq_iff hg hc hf, hw.named, TableName.same_comm]
  refine ⟨link, Schema.parentLink_congr hw.table hlink, ?_⟩
  unfold DeleteFunction.CallsUp
  simp only [DeleteFunction.parentCascade?_eq_some hone, hmem]
  constructor
  · rintro ⟨_, ⟨r, hr, rfl⟩, hname⟩
    exact ⟨r, hr, (hcalled hr).1 hname⟩
  · rintro ⟨r, hr, hsame⟩
    exact ⟨_, ⟨r, hr, rfl⟩, (hcalled hr).2 hsame⟩

/-- **Under single inheritance a function calls down exactly those that call
it up**: where a subtype leaves out its supertype because the supertype calls,
it leaves out the one that calls. -/
theorem callsDown_iff_callsUp (h : s.synthesize namer root = .ok result)
    (hs : s.schema.SingleInheritance) (hf : f ∈ result.registry.functions)
    (hg : g ∈ result.registry.functions) : f.CallsDown g ↔ g.CallsUp f := by
  obtain ⟨link, hlink, hup⟩ := callsUp_iff h hg hf
  rw [callsDown_iff h hf hg, hup, hs.isSubtype_iff hlink]

/-! ## Circles -/

/-- A function of a script calls another one of it down. -/
def DownIn (r : Registry) (f g : DeleteFunction) : Prop :=
  f ∈ r.functions ∧ g ∈ r.functions ∧ f.CallsDown g

/-- The subtypes of a table that has a function have one too. -/
theorem exists_downIn (h : s.synthesize namer root = .ok result)
    (hf : f ∈ result.registry.functions) (hsub : s.schema.IsSubtype u f.table) :
    ∃ g, DownIn result.registry f g ∧ g.table.same u := by
  obtain ⟨t, drafted, callee, w, hw⟩ := writes_of_synthesize h hf
  obtain ⟨v, hsame, hv⟩ := (isSubtype_iff_mem_calls (body_of_draft hw.draft)).1
    (hsub.congr (TableName.same_refl _) (TableName.same_symm hw.table))
  have hc : (callee v, Caller.fromParent) ∈ f.calls .external := by
    rw [hw.calls]
    exact List.mem_map.2 ⟨_, hv, rfl⟩
  obtain ⟨b, hb, hcb⟩ := List.mem_flatMap.1 hc
  obtain ⟨g, hg, hname, htable⟩ := (isClosed_of_synthesize h).exists_called hf
    (List.mem_flatMap.2 ⟨b, hb, Block.mem_callees_of_mem_calls hcb⟩)
  rw [hw.named] at htable
  exact ⟨g, ⟨hf, hg, callee v, hc, hname⟩, TableName.same_trans htable (TableName.same_symm hsame)⟩

/-- A chain of subtypes below the table of a function is a chain of calls
down. -/
theorem exists_transGen_downIn (h : s.synthesize namer root = .ok result)
    (hf : f ∈ result.registry.functions)
    (hchain : Relation.TransGen (fun t u => s.schema.IsSubtype u t) f.table u) :
    ∃ g, Relation.TransGen (DownIn result.registry) f g ∧ g.table.same u := by
  induction hchain with
  | single hsub =>
    obtain ⟨g, hdown, hsame⟩ := exists_downIn h hf hsub
    exact ⟨g, .single hdown, hsame⟩
  | tail _ hsub ih =>
    obtain ⟨g, hchain, hsame⟩ := ih
    obtain ⟨-, -, -, hg, -⟩ := Relation.TransGen.tail'_iff.1 hchain
    obtain ⟨g', hdown, hsame'⟩ := exists_downIn h hg
      (hsub.congr (TableName.same_refl _) (TableName.same_symm hsame))
    exact ⟨g', hchain.tail hdown, hsame'⟩

/-- **Calls down come back to a function exactly where subtypes go round in a
circle.** -/
theorem transGen_callsDown_iff (h : s.synthesize namer root = .ok result)
    (hf : f ∈ result.registry.functions) : Relation.TransGen (DownIn result.registry) f f ↔
      Relation.TransGen (fun t u => s.schema.IsSubtype u t) f.table f.table := by
  constructor
  · exact fun hchain => hchain.lift _ fun f g ⟨hf, hg, hdown⟩ => (callsDown_iff h hf hg).1 hdown
  · intro hchain
    obtain ⟨g, hdown, hsame⟩ := exists_transGen_downIn h hf hchain
    obtain ⟨-, -, -, hg, -⟩ := Relation.TransGen.tail'_iff.1 hdown
    rwa [(isClosed_of_synthesize h).eq_of_same_or_eq hg hf (Or.inl hsame)] at hdown

end Functions

end Setting

/-! ## What is left behind -/

/-- Villas are houses, and may be listings as well. -/
def villas (supertypes : List String) : Setting where
  schema := ⟨"city", [cityTable "listing" ["id"] [], cityTable "house" ["id"] [],
    cityTable "villa" ["id"] (supertypes.map fun t => ("id", t))], []⟩
  classifier := .ofRecords [] true
  discriminator := "class"

/-- A listed villa. -/
def villaStore (supertypes : List String) : Store where
  schema := (villas supertypes).schema
  contents := [(("city", "listing"), [⟨[("id", 1)]⟩]), (("city", "house"), [⟨[("id", 1)]⟩]),
    (("city", "villa"), [⟨[("id", 1)]⟩])]

/-- The function of houses calls that of villas down, and is called up. -/
theorem Setting.callsDown_iff_callsUp_villa : ∃ result f g,
    (villas ["house"]).synthesize (.new "del_" 63) ⟨"city", "house"⟩ = .ok result ∧
      f ∈ result.registry.functions ∧ g ∈ result.registry.functions ∧
      (villas ["house"]).schema.SingleInheritance ∧ f.CallsDown g ∧ g.CallsUp f := by
  have hone : (villas ["house"]).schema.SingleInheritance :=
    Schema.Regular.singleInheritance (by decide +kernel) (by decide +kernel)
  have hfound : ∃ result f g,
      (villas ["house"]).synthesize (.new "del_" 63) ⟨"city", "house"⟩ = .ok result ∧
        f ∈ result.registry.functions ∧ g ∈ result.registry.functions ∧ f.CallsDown g := by
    refine exists_functions ?_
    -- the recursions that do not evaluate are followed for as long as they last here
    delta Setting.synthesize Setting.cutCycles Setting.cutTable Setting.leadsBack Setting.cutBlock
      Setting.cutNote? Registry.ownerCallReaches
    rw [← Setting.visitFor_eq _ 12]
    delta Setting.visitFor Setting.visitFor._f Setting.write Setting.draft Setting.body
      Setting.dispatch Schema.classMap Schema.enterClasses
    rw [← Schema.classesBelowFor_eq 4, ← Registry.searchFor_eq 12]
    decide +kernel
  obtain ⟨result, f, g, hsyn, hf, hg, hdown⟩ := hfound
  exact ⟨result, f, g, hsyn, hf, hg, hone, hdown,
    (Setting.callsDown_iff_callsUp hsyn hone hf hg).1 hdown⟩

/-- **A supertype can be left behind**: a villa that is deleted for its listing
leaves out its supertype because a supertype calls, and the house stays. -/
theorem not_callsDown_iff_callsUp : ∃ result f g,
    (villas ["house", "listing"]).synthesize (.new "del_" 63) ⟨"city", "listing"⟩ = .ok result ∧
      f ∈ result.registry.functions ∧ g ∈ result.registry.functions ∧ f.CallsDown g ∧
      g.parentCascade? ≠ none ∧ ¬ g.CallsUp f ∧
      ((Program.mk result.registry.functions 8).delete (villaStore ["house", "listing"])
        f.name [1]).result = .ok [1] ∧
      ((Program.mk result.registry.functions 8).delete (villaStore ["house", "listing"])
        f.name [1]).store.contents =
        [(("city", "listing"), []), (("city", "house"), [⟨[("id", 1)]⟩]), (("city", "villa"), [])] := by
  refine exists_functions ?_
  -- the recursions that do not evaluate are followed for as long as they last here
  delta Setting.synthesize Setting.cutCycles Setting.cutTable Setting.leadsBack Setting.cutBlock
    Setting.cutNote? Registry.ownerCallReaches Program.delete Program.call Program.call._f Block.run
    BridgeCascade.run runLocalDelete Store.deleteWhere
  rw [← Setting.visitFor_eq _ 12]
  delta Setting.visitFor Setting.visitFor._f Setting.write Setting.draft Setting.body
    Setting.dispatch Schema.classMap Schema.enterClasses
  rw [← Schema.classesBelowFor_eq 4, ← Registry.searchFor_eq 12, ← Store.enforceFor_eq 9]
  decide +kernel

/-! ## What a circle does to a run -/

/-- A step that fails first fails. -/
theorem Run.bind_eq_error {α β : Type} {x : Run α} {f : α → Run β} {st st' : RunState}
    {e : RunError} (h : x st = .error e st') : (x >>= f) st = .error e st' := by
  change EStateM.bind x f st = _
  unfold EStateM.bind
  rw [h]

/-- A dispatch comes to its first hook without touching the store, if it has no
typed subtypes. -/
theorem Block.dispatch_eq_error {call : CallFunction} {f : DeleteFunction} {batch : List Int}
    {caller : Caller} {frame : Frame} {cases : List (SubtypeCase Callee)} {hook : Callee}
    {hooks : List Callee} {st st' : RunState} {e : RunError}
    (h : call hook.function batch .fromParent st = .error e st') :
    (Block.subtypeDispatch ⟨none, cases, hook :: hooks⟩).run call f batch caller frame st =
      .error e st' := by
  have hfirst : (do let _ ← call hook.function batch .fromParent : Run Unit) st = .error e st' :=
    Run.bind_eq_error h
  have hhooks : ((hook :: hooks).forM fun hook => do
      let _ ← call hook.function batch .fromParent : Run Unit) st = .error e st' :=
    Run.bind_eq_error hfirst
  exact Run.bind_eq_error (f := fun _ => (pure frame : Run Frame)) hhooks

/-- **Functions that begin with calls of each other never end**, whatever the
store: a function whose first block calls one of them for every row fails for
every batch but the empty one. -/
theorem Program.call_eq_tooDeep {p : Program} {names : List String}
    (hnames : ∀ name ∈ names, ∃ f d hook hooks rest, p.lookup name = some f ∧
      f.blocks = .subtypeDispatch ⟨none, d, hook :: hooks⟩ :: rest ∧ hook.function ∈ names)
    (levels : Nat) {name : String} (hname : name ∈ names) {ids : List Int} (hids : ids ≠ [])
    (caller : Caller) (st : RunState) : ∃ last st',
      p.call levels name ids caller st = .error (.tooDeep last (p.maxDepth + 1)) st' := by
  induction levels generalizing name ids caller st with
  | zero => exact ⟨name, st, rfl⟩
  | succ deeper ih =>
    obtain ⟨f, cases, hook, hooks, rest, hf, hblocks, hhook⟩ := hnames name hname
    have hbatch : ascending ids ≠ [] := by
      obtain ⟨id, hid⟩ := List.exists_mem_of_ne_nil ids hids
      exact List.ne_nil_of_mem (mem_ascending.2 hid)
    obtain ⟨last, st', hcall⟩ := ih hhook hbatch .fromParent
      ⟨st.store, st.trace ++ [⟨name, caller, ascending ids, p.maxDepth - deeper⟩]⟩
    refine ⟨last, st', ?_⟩
    unfold call
    rw [hf]
    change EStateM.bind _ _ st = _
    unfold EStateM.bind Run.enter
    simp only [List.isEmpty_iff, hbatch, if_false, hblocks, List.foldlM_cons]
    exact Run.bind_eq_error (Run.bind_eq_error (Block.dispatch_eq_error hcall))

/-- Every buyer is a seller and every seller a buyer. -/
def barter : Setting where
  schema := ⟨"city", [cityTable "buyer" ["id"] [("id", "seller")],
    cityTable "seller" ["id"] [("id", "buyer")]], []⟩
  classifier := .ofRecords [] true
  discriminator := "class"

/-- The functions of buyers and sellers begin with calls of each other, and
nothing is remarked on. -/
theorem exists_barter : ∃ result f g,
    barter.synthesize (.new "del_" 63) ⟨"city", "buyer"⟩ = .ok result ∧
      f ∈ result.registry.functions ∧ g ∈ result.registry.functions ∧
      f.CallsDown g ∧ g.CallsDown f ∧ result.notes = [] ∧
      result.registry.functions.reverse.find? (·.name == f.name) = some f ∧
      result.registry.functions.reverse.find? (·.name == g.name) = some g ∧
      f.blocks.head? = some (.subtypeDispatch ⟨none, [], [⟨g.table, g.name⟩]⟩) ∧
      g.blocks.head? = some (.subtypeDispatch ⟨none, [], [⟨f.table, f.name⟩]⟩) := by
  refine exists_functions ?_
  -- the recursions that do not evaluate are followed for as long as they last here
  delta Setting.synthesize Setting.cutCycles Setting.cutTable Setting.leadsBack Setting.cutBlock
    Setting.cutNote? Registry.ownerCallReaches
  rw [← Setting.visitFor_eq _ 12]
  delta Setting.visitFor Setting.visitFor._f Setting.write Setting.draft Setting.body
    Setting.dispatch Schema.classMap Schema.enterClasses
  rw [← Schema.classesBelowFor_eq 4, ← Registry.searchFor_eq 12]
  decide +kernel

/-- The calls between buyers and sellers go round as their tables do. -/
theorem Setting.transGen_callsDown_iff_barter : ∃ result f,
    barter.synthesize (.new "del_" 63) ⟨"city", "buyer"⟩ = .ok result ∧
      f ∈ result.registry.functions ∧ Relation.TransGen (Setting.DownIn result.registry) f f ∧
      Relation.TransGen (fun t u => barter.schema.IsSubtype u t) f.table f.table := by
  obtain ⟨result, f, g, hsyn, hf, hg, hdown, hback, -⟩ := exists_barter
  have hround : Relation.TransGen (Setting.DownIn result.registry) f f :=
    .tail (.single ⟨hf, hg, hdown⟩) ⟨hg, hf, hback⟩
  exact ⟨result, f, hsyn, hf, hround, (Setting.transGen_callsDown_iff hsyn hf).1 hround⟩

/-- **Calls down can go round unnoticed**: without a remark, a deletion of
buyers calls for ever, whatever the store and unless the batch is empty. -/
theorem not_acyclic_callsDown : ∃ result f,
    barter.synthesize (.new "del_" 63) ⟨"city", "buyer"⟩ = .ok result ∧ result.notes = [] ∧
      f ∈ result.registry.functions ∧ Relation.TransGen (Setting.DownIn result.registry) f f ∧
      ∀ (depth : Nat) (store : Store) (ids : List Int), ids ≠ [] → ∃ last,
        ((Program.mk result.registry.functions depth).delete store f.name ids).result =
          .error (.tooDeep last (depth + 1)) := by
  obtain ⟨result, f, g, hsyn, hf, hg, hdown, hback, hnotes, hlookup, hlookup', hhead, hhead'⟩ :=
    exists_barter
  refine ⟨result, f, hsyn, hnotes, hf, .tail (.single ⟨hf, hg, hdown⟩) ⟨hg, hf, hback⟩,
    fun depth store ids hids => ?_⟩
  have hnames : ∀ name ∈ [f.name, g.name], ∃ f' d hook hooks rest,
      (Program.mk result.registry.functions depth).lookup name = some f' ∧
      f'.blocks = .subtypeDispatch ⟨none, d, hook :: hooks⟩ :: rest ∧
      hook.function ∈ [f.name, g.name] := by
    intro name hname
    rcases List.mem_cons.1 hname with rfl | hname
    · obtain ⟨rest, hblocks⟩ := List.head?_eq_some_iff.1 hhead
      exact ⟨f, [], _, [], rest, hlookup, hblocks, by simp⟩
    · obtain rfl := List.mem_singleton.1 hname
      obtain ⟨rest, hblocks⟩ := List.head?_eq_some_iff.1 hhead'
      exact ⟨g, [], _, [], rest, hlookup', hblocks, by simp⟩
  have hname : f.name ∈ [f.name, g.name] := by simp
  obtain ⟨last, st', hcall⟩ :=
    Program.call_eq_tooDeep hnames (depth + 1) hname hids .external ⟨store, []⟩
  refine ⟨last, ?_⟩
  unfold Program.delete
  rw [hcall]

end DeleteCascade
