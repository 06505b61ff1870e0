import DeleteCascade.Proofs.Function.Registry
import Mathlib.Data.Nat.Digits.Defs
/-!
# Names — what a namer gives

The name of a table's function is one of few: the base name, or the base
name cut further behind which a number stands (`Namer.Makes`). So it fits
(`Makes.length_le`), and it keeps the stem as long as the stem leaves room
for the largest number (`Makes.stem_prefix`); a longer stem may lose its end.
-/

namespace DeleteCascade

namespace Namer

variable {n n' : Namer} {base name table : String} {maxLength number : Nat}

/-- **The names that a namer can give to the function of a table.** -/
inductive Makes (n : Namer) (table : String) : String → Prop
  | base : n.Makes table (n.baseName table)
  | numbered {number : Nat} {name : String} (small : number ≤ maxNumber)
      (fits : numbered? (n.baseName table) n.maxLength number = some name) : n.Makes table name

/-- A namer gives a name that it can make, and goes on as before. -/
theorem makes_of_assign (h : n.assign table = .ok (name, n')) :
    n.Makes table name ∧ n'.stem = n.stem ∧ n'.maxLength = n.maxLength := by
  unfold assign at h
  split at h
  · rename_i hfree
    cases h
    refine ⟨?_, rfl, rfl⟩
    unfold free? at hfree
    split at hfree
    · cases hfree
      exact .base
    · obtain ⟨number, hmem, hnumber⟩ := List.exists_of_findSome?_eq_some hfree
      have hsmall : number ≤ maxNumber := by
        have := (List.mem_range'_1.1 hmem).2
        omega
      exact .numbered hsmall (Option.filter_eq_some_iff.1 hnumber).1
  · cases h

/-- What a namer makes depends on the stem and the length only. -/
theorem Makes.congr (hstem : n'.stem = n.stem) (hlength : n'.maxLength = n.maxLength)
    (h : n'.Makes table name) : n.Makes table name := by
  have hbase : n'.baseName table = n.baseName table := by rw [baseName, baseName, hstem, hlength]
  cases h with
  | base => exact hbase ▸ .base
  | numbered small fits =>
    rw [hbase, hlength] at fits
    exact .numbered small fits

theorem numbered?_eq_some (h : numbered? base maxLength number = some name) :
    (toString number).length < maxLength ∧
      name = cut base (maxLength - (toString number).length) ++ toString number := by
  unfold numbered? at h
  dsimp only at h
  split at h
  · rename_i hfits
    cases h
    exact ⟨hfits, rfl⟩
  · cases h

theorem length_cut_le (s : String) (length : Nat) : (cut s length).length ≤ length := by
  simp only [cut, String.length_ofList, List.length_take, Nat.min_le_left]

/-- A name is no longer than the namer allows. -/
theorem Makes.length_le (h : n.Makes table name) : name.length ≤ n.maxLength := by
  cases h with
  | base => exact length_cut_le _ _
  | numbered _ fits =>
    obtain ⟨hfits, rfl⟩ := numbered?_eq_some fits
    have hcut := length_cut_le (n.baseName table) (n.maxLength - (toString ‹Nat›).length)
    rw [String.length_append]
    omega

/-- How many digits the largest number has. -/
def numberLength : Nat := 3

theorem length_toString_le (h : number ≤ maxNumber) : (toString number).length ≤ numberLength :=
  Nat.repr_length number numberLength (by decide) (Nat.lt_succ_of_le h)

/-- A cut that leaves room for a text leaves the text. -/
theorem prefix_cut {stem s : String} {length : Nat} (h : stem.toList <+: s.toList)
    (hroom : stem.length ≤ length) : stem.toList <+: (cut s length).toList := by
  rw [cut, String.toList_ofList]
  exact List.prefix_take_iff.2 ⟨h, by rwa [String.length_toList]⟩

/-- **A name begins with the stem**, if the largest number fits beside it. -/
theorem Makes.stem_prefix (h : n.Makes table name)
    (hroom : n.stem.length + numberLength ≤ n.maxLength) : n.stem.toList <+: name.toList := by
  have hstem : n.stem.toList <+: (n.baseName table).toList := by
    refine prefix_cut ?_ (by omega)
    rw [String.toList_append]
    exact List.prefix_append _ _
  cases h with
  | base => exact hstem
  | numbered small fits =>
    obtain ⟨-, rfl⟩ := numbered?_eq_some fits
    have hdigits := length_toString_le small
    rw [String.toList_append]
    exact (prefix_cut hstem (by omega)).trans (List.prefix_append _ _)

end Namer

namespace Registry

variable {r r' : Registry} {n : Namer} {t : TableName} {name : String}

/-- All names given so far are what a namer makes, and so will be those to
come. -/
structure NamedBy (r : Registry) (n : Namer) : Prop where
  stem : r.namer.stem = n.stem
  maxLength : r.namer.maxLength = n.maxLength
  names : ∀ e ∈ r.records, n.Makes e.function.table.name e.function.name

theorem NamedBy.new (n : Namer) : (Registry.new n).NamedBy n := ⟨rfl, rfl, by simp [Registry.new]⟩

theorem NamedBy.reserve (h : r.NamedBy n) (hr : r.reserve t = .ok (name, r')) : r'.NamedBy n := by
  rcases reserve_eq_ok hr with ⟨e, -, -, rfl⟩ | ⟨-, namer, hassign, rfl⟩
  · exact h
  · obtain ⟨hmakes, hstem, hlength⟩ := Namer.makes_of_assign hassign
    refine ⟨hstem.trans h.stem, hlength.trans h.maxLength, fun e he => ?_⟩
    rcases List.mem_append.1 he with he | he
    · exact h.names e he
    · obtain rfl := List.mem_singleton.1 he
      exact hmakes.congr h.stem h.maxLength

theorem NamedBy.reserveAll {ts : List TableName} (h : r.NamedBy n)
    (hr : r.reserveAll ts = .ok r') : r'.NamedBy n := by
  induction ts generalizing r with
  | nil =>
    cases hr
    exact h
  | cons t ts ih =>
    unfold Registry.reserveAll at hr
    split at hr
    · cases hr
    · rename_i hr₁
      exact ih (h.reserve hr₁) hr

theorem NamedBy.beginVisit (h : r.NamedBy n) {begins : Bool}
    (hr : r.beginVisit t = .ok (begins, r')) : r'.NamedBy n := by
  obtain ⟨name, r₁, hr₁, ⟨-, rfl⟩ | ⟨-, rfl⟩⟩ := beginVisit_eq_ok hr
  · have h₁ := h.reserve hr₁
    exact ⟨h₁.stem, h₁.maxLength, h₁.names⟩
  · exact h.reserve hr₁

theorem NamedBy.modify {g : FunctionRecord → FunctionRecord} (h : r.NamedBy n)
    (hg : KeepsIdentity g) : (r.modify t g).NamedBy n := by
  refine ⟨h.stem, h.maxLength, fun e' he' => ?_⟩
  obtain ⟨e, he, rfl⟩ := mem_modify.1 he'
  split
  · rw [(hg e).1, (hg e).2]
    exact h.names e he
  · exact h.names e he

end Registry

end DeleteCascade
