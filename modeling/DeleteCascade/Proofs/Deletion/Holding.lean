import DeleteCascade.Proofs.Deletion.Bonds
import DeleteCascade.Proofs.Synthesis.Owners
/-!
# Deletion — rows that are held

A row is held while an owner check finds an owner of it (`Setting.Held`).
What holds a row is stated here by the store alone, so that it can be
followed through a run in which the check is asked now and then:
`any_isOwned_iff` says that the check finds just that, whichever spelling of
the table it was drafted for.
-/

namespace DeleteCascade

/-- **An owner holds the row with key `x`**: a column of the row has a value,
or a row elsewhere points at it. -/
def Store.HeldBy (s : Store) (n : TableName) (x : Int) : Owner → Prop
  | .ownColumn c => ∃ v, (Fact.cell n x c v).Holds s
  | .referencing u c => ∃ r ∈ s.rows u, r.get? c = some x

/-- How an owner is spelled does not matter. -/
theorem Store.HeldBy.congr {s : Store} {n : TableName} {x : Int} {o o' : Owner}
    (h : s.HeldBy n x o) (hlike : o'.Like o) : s.HeldBy n x o' := by
  cases o with
  | ownColumn c =>
    cases o' with
    | ownColumn c' =>
      obtain ⟨v, k, hk, r, hr, hx, hv⟩ := h
      exact ⟨v, k, hk, r, hr, hx, by rw [Row.get?_congr r hlike, hv]⟩
    | referencing => cases hlike
  | referencing u c =>
    cases o' with
    | ownColumn => cases hlike
    | referencing u' c' =>
      obtain ⟨r, hr, hx⟩ := h
      exact ⟨r, by rwa [Store.rows_congr s hlike.1], by rw [Row.get?_congr r hlike.2, hx]⟩

namespace Setting

variable {σ : Setting} {s s' : Store} {n u : TableName} {c k key : String} {x : Int}
variable {o : Owner} {owners : List Owner}

/-- **An owner check finds an owner of the row.** -/
def Held (σ : Setting) (s : Store) (n : TableName) (x : Int) : Prop :=
  ∃ o, σ.Asks n o ∧ s.HeldBy n x o

/-- Rows that are asked for point at the row along a link. -/
theorem Asks.link (hg : σ.schema.Regular) (h : σ.Asks n (.referencing u c)) :
    σ.schema.Link u c n := by
  cases h with
  | reference link => exact link
  | bridge isBridge => exact (isBridge.spec hg).near

/-- What is asked for is listed, in some spelling. -/
theorem Asks.exists_listed (h : σ.Asks n o) (hg : σ.schema.Regular) (hclear : σ.IsClear)
    (hcheck : (σ.ownerCheck n).outcome = .ok owners) : ∃ o' ∈ owners, o'.Like o := by
  have hn : n.same n := TableName.same_refl n
  cases h with
  | column link plain owns =>
    exact exists_ownColumn hg hn hcheck link plain fun kind => hclear.isOwning owns
  | reference link other plain unlinked owns =>
    exact exists_referencing hg hn hcheck link other plain unlinked
      fun kind => hclear.isOwning owns
  | bridge isBridge owns => exact exists_bridge hn hcheck isBridge fun kind => hclear.isOwning owns

/-- **An owner check finds an owner just of the rows that are held.** -/
theorem any_isOwned_iff (hg : σ.schema.Regular) (hone : σ.schema.OneKeyPerColumn)
    (hclear : σ.IsClear) (hs : s.schema = σ.schema) (hk : σ.schema.key? n = some k)
    (hkey : sameName k key) (hcheck : (σ.ownerCheck n).outcome = .ok owners) :
    owners.any (s.isOwned n key x) = true ↔ σ.Held s n x := by
  have howned (o : Owner) : s.isOwned n key x o = true ↔ s.HeldBy n x o := by
    cases o with
    | ownColumn c =>
      simp only [Store.isOwned, List.any_eq_true, Bool.and_eq_true, beq_iff_eq,
        Option.isSome_iff_exists]
      constructor
      · rintro ⟨r, hr, hx, v, hv⟩
        exact ⟨v, k, by rw [hs, hk], r, hr, by rw [Row.get?_congr r hkey, hx], hv⟩
      · rintro ⟨v, l, hl, r, hr, hx, hv⟩
        rw [hs, hk] at hl
        cases hl
        exact ⟨r, hr, by rw [← Row.get?_congr r hkey, hx], v, hv⟩
    | referencing u c => exact Store.hasValue_iff
  constructor
  · intro h
    obtain ⟨o, ho, hfound⟩ := List.any_eq_true.1 h
    exact ⟨o, asks_of_mem hg hone hcheck ho, (howned o).1 hfound⟩
  · rintro ⟨o, hasks, hheld⟩
    obtain ⟨o', ho', hlike⟩ := hasks.exists_listed hg hclear hcheck
    exact List.any_eq_true.2 ⟨o', ho', (howned o').2 (hheld.congr hlike)⟩

/-- Rows that an owner check lets through are not held. -/
theorem not_held_of_unowned (hg : σ.schema.Regular) (hone : σ.schema.OneKeyPerColumn)
    (hclear : σ.IsClear) (hs : s.schema = σ.schema) (hk : σ.schema.key? n = some k)
    (hkey : sameName k key) (hcheck : (σ.ownerCheck n).outcome = .ok owners) {ids : List Int}
    (hx : x ∈ s.unowned n key (some owners) ids) : x ∈ ids ∧ ¬ σ.Held s n x := by
  obtain ⟨hmem, hnone⟩ := List.mem_filter.1 hx
  refine ⟨hmem, fun hheld => ?_⟩
  rw [(any_isOwned_iff hg hone hclear hs hk hkey hcheck).2 hheld] at hnone
  cases hnone

end Setting

end DeleteCascade
