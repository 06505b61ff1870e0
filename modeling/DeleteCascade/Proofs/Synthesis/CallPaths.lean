import DeleteCascade.Proofs.Synthesis.Cuts
/-!
# Programs — paths of calls

A loop of owners is cut where a call by an owner leads back to where it
started. What leads where is said here block by block: a block leaves out what
the caller of its function rules out and makes its other calls (`Block.Makes`),
a call passes on to each call that a block of its function makes
(`Registry.Passes`), and a path is a chain of such steps. The search for calls
that lead back ends on all registries, and finds a path exactly if there is one
(`Registry.ownerCallReaches_iff_exists_path`).
-/

namespace DeleteCascade

theorem Caller.skipsSubtypes_iff {c : Caller} : c.skipsSubtypes = true ↔ c = .fromSubtype := by
  cases c <;> simp [skipsSubtypes]

theorem Caller.skipsParent_iff {c : Caller} : c.skipsParent = true ↔ c = .fromParent := by
  cases c <;> simp [skipsParent]

/-- **A block makes a call**, in a function that was called by `caller`. A
supertype called by its subtype does not look for the typed subtypes, a subtype
called by its supertype leaves that alone, and all other calls are made for
every caller. -/
inductive Block.Makes (caller : Caller) : Block Callee → Callee → Caller → Prop
  /-- A subtype that is chosen by the class of the object. -/
  | typed {b : SubtypeDispatch Callee} {case : SubtypeCase Callee} (mem : case ∈ b.cases)
      (active : caller ≠ .fromSubtype) : Makes caller (.subtypeDispatch b) case.callee .fromParent
  /-- A subtype without classes. -/
  | hook {b : SubtypeDispatch Callee} {callee : Callee} (mem : callee ∈ b.hooks) :
      Makes caller (.subtypeDispatch b) callee .fromParent
  /-- The supertype. -/
  | parent {callee : Callee} (active : caller ≠ .fromParent) :
      Makes caller (.parentCascade callee) callee .fromSubtype
  /-- What the rows own. -/
  | owned {b : Block Callee} {callee : Callee} (notDispatch : b.kind ≠ .subtypeDispatch)
      (notParent : b.kind ≠ .parentCascade) (mem : callee ∈ b.callees) :
      Makes caller b callee .fromOwner

/-- The calls that are listed for a block are those it makes. -/
theorem Block.mem_calls_iff {caller next : Caller} {b : Block Callee} {callee : Callee} :
    (callee, next) ∈ b.calls caller ↔ b.Makes caller callee next := by
  constructor
  · intro h
    cases b with
    | subtypeDispatch b =>
      simp only [calls, List.mem_append] at h
      rcases h with h | h
      · split at h
        · cases h
        · rename_i hactive
          obtain ⟨case, hcase, heq⟩ := List.mem_map.1 h
          cases heq
          exact .typed hcase fun hcaller => hactive (Caller.skipsSubtypes_iff.2 hcaller)
      · obtain ⟨hook, hhook, heq⟩ := List.mem_map.1 h
        cases heq
        exact .hook hhook
    | parentCascade parent =>
      simp only [calls] at h
      split at h
      · cases h
      · rename_i hactive
        cases List.mem_singleton.1 h
        exact .parent fun hcaller => hactive (Caller.skipsParent_iff.2 hcaller)
    | selfParts | childCascade | bridgeCascade | localDelete | referencedCleanup =>
      obtain ⟨owned, howned, heq⟩ := List.mem_map.1 h
      cases heq
      exact .owned (by simp [kind]) (by simp [kind]) howned
  · intro h
    cases h with
    | typed mem active =>
      rw [calls, if_neg (mt Caller.skipsSubtypes_iff.1 active)]
      exact List.mem_append_left _ (List.mem_map.2 ⟨_, mem, rfl⟩)
    | hook mem => exact List.mem_append_right _ (List.mem_map.2 ⟨_, mem, rfl⟩)
    | parent active =>
      rw [calls, if_neg (mt Caller.skipsParent_iff.1 active)]
      exact List.mem_singleton_self _
    | owned notDispatch notParent mem =>
      cases b with
      | subtypeDispatch => exact absurd rfl notDispatch
      | parentCascade => exact absurd rfl notParent
      | _ => exact List.mem_map.2 ⟨_, mem, rfl⟩

namespace Registry

variable {r : Registry} {target : TableName} {a b : Call}

/-- **A call passes on to another**: its table has a function, and a block of it
makes the other call. -/
def Passes (r : Registry) (a b : Call) : Prop :=
  ∃ f, r.get? a.1 = some f ∧ ∃ block ∈ f.blocks, ∃ callee : Callee,
    callee.table = b.1 ∧ block.Makes a.2 callee b.2

theorem mem_callsOf_iff : b ∈ r.callsOf a ↔ r.Passes a b := by
  unfold callsOf Passes
  cases hf : r.get? a.1 with
  | none => simp
  | some f =>
    simp only [DeleteFunction.calls, List.mem_map, List.mem_flatMap, Prod.exists,
      Block.mem_calls_iff, Option.some.injEq, exists_eq_left']
    constructor
    · rintro ⟨callee, next, ⟨block, hblock, hmakes⟩, rfl⟩
      exact ⟨block, hblock, callee, rfl, hmakes⟩
    · rintro ⟨block, hblock, callee, htable, hmakes⟩
      exact ⟨callee, b.2, ⟨block, hblock, hmakes⟩, by rw [htable]⟩

/-- What a call leads to lies at the end of a path. -/
theorem reaches_iff : r.Reaches target a ↔
    ∃ b : Call, Relation.ReflTransGen r.Passes a b ∧ b.1.same target := by
  constructor
  · intro h
    induction h with
    | @here a same => exact ⟨a, .refl, same⟩
    | step calls _ ih =>
      obtain ⟨b, hpath, hsame⟩ := ih
      exact ⟨b, .head (mem_callsOf_iff.1 calls) hpath, hsame⟩
  · rintro ⟨b, hpath, hsame⟩
    induction hpath using Relation.ReflTransGen.head_induction_on with
    | refl => exact .here hsame
    | head hpasses _ ih => exact .step (mem_callsOf_iff.2 hpasses) ih

/-- **The search for calls that lead back is exact** on all registries, however
their functions call each other: it finds a table exactly if a path leads from
the owner's call to a call of that table, by whichever caller. -/
theorem ownerCallReaches_iff_exists_path (r : Registry) (start target : TableName) :
    r.ownerCallReaches start target = true ↔
      ∃ (t : TableName) (caller : Caller), t.same target = true ∧
        Relation.ReflTransGen r.Passes (start, .fromOwner) (t, caller) := by
  rw [ownerCallReaches_iff, reaches_iff]
  constructor
  · rintro ⟨⟨t, caller⟩, hpath, hsame⟩
    exact ⟨t, caller, hsame, hpath⟩
  · rintro ⟨t, caller, hsame, hpath⟩
    exact ⟨(t, caller), hpath, hsame⟩

end Registry

end DeleteCascade
