import DeleteCascade.Proofs.Synthesis.Body
import DeleteCascade.Synthesis.Cycle
/-!
# Plans — writing a body

A body is drafted in terms of tables. Writing it names what it calls, and
cutting loops of owners detaches some of its children; nothing else happens
to it (`Written`). So a written block does what it was drafted for
(`Written.plans`), and a written body has the shape of the drafted one
(`IsBody.written`).
-/

namespace DeleteCascade

/-- **How a drafted block ends up**: what it calls is named, and children
may be cut off. -/
inductive Written (callee : TableName → Callee) : Block TableName → Block Callee → Prop
  | named (b : Block TableName) : Written callee b (b.map callee)
  | cut (b : ChildCascade TableName) :
      Written callee (.childCascade b) (.childCascade
        ⟨b.child, b.childKey, b.column, true, b.ownerCheck, callee b.callee⟩)

namespace Written

variable {callee : TableName → Callee} {b : Block TableName} {b' : Block Callee}

theorem callees (h : Written callee b b') : b'.callees = b.callees.map callee := by
  cases h with
  | named => simp
  | cut b => rfl

theorem kind (h : Written callee b b') : b'.kind = b.kind := by
  cases h with
  | named => simp
  | cut b => rfl

theorem calls (h : Written callee b b') (caller : Caller) :
    b'.calls caller = (b.calls caller).map fun call => (callee call.1, call.2) := by
  cases h with
  | named => simp
  | cut b => rfl

theorem localDelete {captured : List String} (h : Written callee (.localDelete captured) b') :
    b' = .localDelete captured := by
  cases h
  rfl

theorem referencedCleanup {c : ReferencedCleanup TableName}
    (h : Written callee (.referencedCleanup c) b') : b' = .referencedCleanup
      ⟨c.column, c.slot, c.target, c.targetKey, c.ownerCheck, callee c.callee⟩ := by
  cases h
  rfl

theorem parentCascade {u : TableName} (h : Written callee (.parentCascade u) b') :
    b' = .parentCascade (callee u) := by
  cases h
  rfl

/-- Cutting changes at most whether children are cut off. -/
theorem cutBlock_eq (r : Registry) (t : TableName) (is : List Incoming) (b' : Block Callee) :
    Setting.cutBlock r t is b' = b' ∨ ∃ c, b' = .childCascade c ∧
      Setting.cutBlock r t is b' = .childCascade { c with detach := true } := by
  unfold Setting.cutBlock
  split
  · rename_i c
    split
    · exact Or.inr ⟨c, rfl, rfl⟩
    · exact Or.inl rfl
  · exact Or.inl rfl

/-- Cutting a written block leaves it written. -/
theorem cutBlock (h : Written callee b b') (r : Registry) (t : TableName) (is : List Incoming) :
    Written callee b (Setting.cutBlock r t is b') := by
  rcases cutBlock_eq r t is b' with heq | ⟨c, rfl, heq⟩
  · rw [heq]
    exact h
  · rw [heq]
    generalize hb' : Block.childCascade c = b' at h
    cases h with
    | named b =>
      cases b with
      | childCascade b =>
        cases hb'
        exact .cut b
      | _ => cases hb'
    | cut b =>
      cases hb'
      exact .cut b

/-- **A written block does what it was drafted for.** -/
theorem plans {s : Setting} {t t' : TableName} {notes captured : List String}
    (h : Written callee b b') (hcallee : ∀ u, (callee u).table = u) (ht : t.same t')
    (hp : s.Plans t id notes captured b) : s.Plans t' (·.table) notes captured b' := by
  have hsymm : t'.same t = true := TableName.same_symm ht
  have hname {u v : TableName} (huv : u.same v = true) : (callee u).table.same v = true := by
    rw [hcallee]
    exact huv
  cases hp with
  | @selfParts b link classified hc cut =>
    cases h
    exact .selfParts (fun hg => (link hg).congr ht (by simp) ht)
      (classified.congr ht ht (by simp)) (hname (TableName.same_trans hc ht)) cut
  | @childCascade b kind link other key notKey classified owning hc shared unshared entered
      shareable =>
    have hother : b.child.same t' = false := by rw [← TableName.same_congr_right ht, other]
    have hlink := link.congr (TableName.same_refl _) (sameName_refl _) ht
    have hclass := classified.congr (TableName.same_refl _) ht (sameName_refl _)
    rw [Schema.foreignKeysTo_congr ht] at entered
    cases h with
    | named =>
      exact .childCascade hlink hother key notKey hclass owning (hname hc) shared unshared entered
        shareable
    | cut =>
      refine .childCascade hlink hother key notKey hclass owning (hname hc) ?_ unshared entered
        shareable
      intro owners howners
      obtain ⟨hkind, -, hcheck⟩ := shared owners howners
      exact ⟨hkind, rfl, hcheck⟩
  | @bridgeCascade b br kind isBridge table near far target targetKey classified check owned unowned =>
    cases h
    refine .bridgeCascade (isBridge.congr ht) table near far target targetKey
      (classified.congr (by simp) ht (by simp)) check (fun howning => ?_) fun hnot => ?_
    · obtain ⟨c, hc, hsame⟩ := owned howning
      exact ⟨callee c, by simp [hc], hname hsame⟩
    · simp [unowned hnot]
  | @subtypeDispatch b subtypes =>
    cases h with
    | named =>
      refine .subtypeDispatch fun c hc => ?_
      have hmem : c ∈ ((Block.subtypeDispatch b).map callee).callees := hc
      rw [Block.callees_map] at hmem
      obtain ⟨u, hu, rfl⟩ := List.mem_map.1 hmem
      rw [hcallee]
      exact (subtypes u hu).congr (by simp) ht
  | localDelete =>
    cases h
    exact .localDelete
  | @referencedCleanup b kind slot link other notKey classified owning key check hc =>
    cases h
    refine .referencedCleanup slot (fun hg => (link hg).congr ht (by simp) (by simp))
      (fun hg => ?_) (fun hg k hk => notKey hg k ?_) (classified.congr (by simp) ht (by simp))
      owning key check (hname hc)
    · rw [TableName.same_congr_left hsymm]
      exact other hg
    · rw [Schema.key?_congr ht, hk]
  | parentCascade supertype =>
    cases h
    refine .parentCascade fun hg => ?_
    rw [hcallee]
    exact (supertype hg).congr ht (by simp)

end Written

namespace Setting

variable {s : Setting} {t t' : TableName} {notes captured : List String}

/-- **A written body has the shape of the drafted one.** -/
theorem IsBody.written {front back : List (Block TableName)} {callee : TableName → Callee}
    {w : Block TableName → Block Callee} (h : s.IsBody t id notes captured front back)
    (hw : ∀ b, Written callee b (w b)) (hcallee : ∀ u, (callee u).table = u) (ht : t.same t') :
    s.IsBody t' (·.table) notes captured (front.map w) (back.map w) := by
  have hlocal : w (.localDelete captured) = .localDelete captured := (hw _).localDelete
  have hblocks : front.map w ++ .localDelete captured :: back.map w =
      (front ++ .localDelete captured :: back).map w := by
    simp [hlocal]
  refine ⟨?_, ?_, ?_, ?_, ?_⟩
  · intro b' hb'
    rw [hblocks] at hb'
    obtain ⟨b, hb, rfl⟩ := List.mem_map.1 hb'
    exact (hw b).plans hcallee ht (h.plans b hb)
  · intro b' hb'
    obtain ⟨b, hb, rfl⟩ := List.mem_map.1 hb'
    rw [(hw b).kind]
    exact h.early b hb
  · intro b' hb'
    obtain ⟨b, hb, rfl⟩ := List.mem_map.1 hb'
    rcases h.late b hb with ⟨c, rfl⟩ | ⟨u, rfl⟩
    · exact Or.inl ⟨_, (hw _).referencedCleanup⟩
    · exact Or.inr ⟨_, (hw _).parentCascade⟩
  · intro hg c u hlink hne hkey hall
    have hsymm := TableName.same_symm ht
    obtain ⟨b, hb, hcol, htarget⟩ := h.targets hg c u (hlink.congr hsymm (by simp) (by simp))
      (by rw [TableName.same_congr_left ht, hne])
      (fun k hk => hkey k (by rw [← Schema.key?_congr ht, hk]))
      (fun kind hkind => hall kind (hkind.congr (by simp) ht (by simp)))
    exact ⟨_, List.mem_map.2 ⟨_, hb, (hw _).referencedCleanup⟩, hcol, htarget⟩
  · intro hg u hu
    obtain ⟨v, hv⟩ := h.parent hg u (hu.congr (TableName.same_symm ht) (by simp))
    exact ⟨_, List.mem_map.2 ⟨_, hv, (hw _).parentCascade⟩⟩

end Setting

end DeleteCascade
