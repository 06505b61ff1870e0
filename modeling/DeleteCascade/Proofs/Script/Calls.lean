import DeleteCascade.Proofs.Run.Issued
import DeleteCascade.Script.Basic
import Mathlib.Data.List.Basic
/-!
# Scripts — what calls a text makes

The text of a block has the calls of `Block.sites` in both dialects, each
with the caller that its kind of block passes on (`Block.Guarded.calls`), and
the conditions around a call let it through for exactly those callers for
which a run can make it (`Block.Guarded.callsFor`). A block that calls a
function tests for the owners it was given, one after the other
(`Postgres.ownerTests_block` and `Oracle.ownerTests_block`); a bridge without
a function removes links and tests for none
(`Dialect.not_ownerTests_eq_checks`).

`Spelling.Shows` says how a rendered text is made of calls and tests,
`Dialect.Renders` puts the statements about one block together, and
`Dialect.calls_alike` sets both texts beside the runs of the block.
-/

namespace DeleteCascade

/-! ## Views of texts put together -/

namespace Sql

@[simp] theorem guardedCalls_concat (parts : List Sql) :
    (concat parts).guardedCalls = parts.flatMap guardedCalls := by
  unfold concat
  induction parts with
  | nil => rfl
  | cons part parts ih => rw [List.foldr_cons, guardedCalls, ih, List.flatMap_cons]

@[simp] theorem guardedCalls_separated (separator : String) (parts : List Sql) :
    (separated separator parts).guardedCalls = parts.flatMap guardedCalls := by
  induction parts using separated.induct with
  | case1 => rfl
  | case2 part => simp [separated]
  | case3 part rest hrest ih => simp [separated, guardedCalls, ih]

@[simp] theorem ownerTests_concat (parts : List Sql) :
    (concat parts).ownerTests = parts.flatMap ownerTests := by
  unfold concat
  induction parts with
  | nil => rfl
  | cons part parts ih => rw [List.foldr_cons, ownerTests, ih, List.flatMap_cons]

@[simp] theorem ownerTests_separated (separator : String) (parts : List Sql) :
    (separated separator parts).ownerTests = parts.flatMap ownerTests := by
  induction parts using separated.induct with
  | case1 => rfl
  | case2 part => simp [separated]
  | case3 part rest hrest ih => simp [separated, ownerTests, ih]

end Sql

/-- Tests make no calls. -/
@[simp] theorem guardedCalls_ownerTests (table : TableName) (keyColumn : String)
    (owners : List Owner) : (ownerTests table keyColumn owners).guardedCalls = [] := by
  simp [ownerTests, List.flatMap_map, Sql.guardedCalls]

/-- There is one test for each owner, in their order. -/
@[simp] theorem ownerTests_ownerTests (table : TableName) (keyColumn : String)
    (owners : List Owner) :
    (ownerTests table keyColumn owners).ownerTests = owners.map fun o => ⟨table, keyColumn, o⟩ := by
  induction owners <;> simp_all [ownerTests, List.flatMap_map, Sql.ownerTests]

/-! ## The text of a block -/

namespace Block

variable {κ : Type}

/-- The tests that an owner check asks for. -/
def tests (table : TableName) (keyColumn : String) (owners : Option (List Owner)) :
    List OwnerTest :=
  (owners.getD []).map fun o => ⟨table, keyColumn, o⟩

/-- The tests that the owner check of a block asks for. -/
def checks : Block κ → List OwnerTest
  | childCascade b => tests b.child b.childKey b.ownerCheck
  | bridgeCascade b => tests b.target b.targetKey b.ownerCheck
  | referencedCleanup b => tests b.target b.targetKey b.ownerCheck
  | _ => []

end Block

/-- **How the calls of a block stand in its text**: typed subtypes are not
called for a subtype, the supertype is not called for the supertype or for no
rows, subtypes without classes are always called, and owned rows are deleted
if there are any. -/
def Block.Guarded (b : Block Callee) (calls : List (List Guard × String × Caller)) : Prop :=
  match b with
  | .subtypeDispatch b => calls =
      (if b.discriminator.isSome then
        b.cases.map fun c => ([.callerIsNot .fromSubtype], c.callee.function, .fromParent)
      else []) ++ b.hooks.map fun h => ([], h.function, .fromParent)
  | .parentCascade callee => calls =
      [([.callerIsNot .fromParent, .notEmpty .deletedIds], callee.function, .fromSubtype)]
  | b => ∃ ids : List Variable,
      calls = b.callees.map fun c => (ids.map .notEmpty, c.function, .fromOwner)

/-- Whether a condition lets through what `caller` has a function do, if there
are ids. -/
def Guard.admits (caller : Caller) : Guard → Bool
  | callerIsNot c => decide (caller ≠ c)
  | notEmpty _ => true

/-- The calls in a text that are not ruled out for a caller. -/
def Sql.callsFor (caller : Caller) (x : Sql) : List (String × Caller) :=
  (x.guardedCalls.filter fun call => call.1.all (·.admits caller)).map (·.2)

namespace Block

variable {b : Block Callee} {x : Sql}

/-- The calls stand in the order of the block. -/
theorem Guarded.calls (h : b.Guarded x.guardedCalls) : x.calls = b.sites.map Callee.named := by
  unfold Sql.calls
  cases b with
  | subtypeDispatch b =>
    rw [show x.guardedCalls = _ from h]
    cases hd : b.discriminator <;>
      simp [sites, reached, kind, BlockKind.passes, Callee.named, hd, Function.comp_def]
  | parentCascade callee =>
    rw [show x.guardedCalls = _ from h]
    rfl
  | _ =>
    obtain ⟨ids, h⟩ := h
    simp [h, sites, reached, kind, BlockKind.passes, Callee.named, Function.comp_def]

/-- A call is let through for the callers for which a run can make it. -/
theorem Guarded.callsFor (h : b.Guarded x.guardedCalls) (caller : Caller) :
    x.callsFor caller = (b.issued caller 1).map Callee.named := by
  have howned (ids : List Variable) :
      (ids.map Guard.notEmpty).all (·.admits caller) = true := by
    simp [List.all_map, Guard.admits]
  unfold Sql.callsFor
  cases b with
  | subtypeDispatch b =>
    rw [show x.guardedCalls = _ from h]
    cases hd : b.discriminator <;> cases caller <;>
      simp [issued, hd, List.filter_map, Guard.admits, Caller.skipsSubtypes, Callee.named,
        Function.comp_def, List.filter_true, List.filter_false]
  | parentCascade callee =>
    rw [show x.guardedCalls = _ from h]
    cases caller <;> rfl
  | _ =>
    obtain ⟨ids, h⟩ := h
    simp [h, howned, issued, List.filter_map, Callee.named, Function.comp_def, List.filter_true]

end Block

namespace Postgres

open Sql (guardedCalls)

theorem guardedCalls_unowned (table : TableName) (keyColumn : String)
    (owners : Option (List Owner)) (ids : Variable) :
    (unowned table keyColumn owners ids).guardedCalls = [] := by
  rcases owners with _ | _ | ⟨o, owners⟩ <;> simp [unowned, guardedCalls]

theorem ownerTests_unowned (table : TableName) (keyColumn : String)
    (owners : Option (List Owner)) (ids : Variable) :
    (unowned table keyColumn owners ids).ownerTests = Block.tests table keyColumn owners := by
  rcases owners with _ | _ | ⟨o, owners⟩ <;> simp [unowned, Sql.ownerTests, Block.tests]

@[simp] theorem guardedCalls_deleteUnowned (table : TableName) (keyColumn : String)
    (owners : Option (List Owner)) (ids : Variable) (callee : Callee) :
    (deleteUnowned table keyColumn owners ids callee).guardedCalls =
      [([.notEmpty ids], callee.function, .fromOwner)] := by
  simp [deleteUnowned, guardedCalls, guardedCalls_unowned]

@[simp] theorem ownerTests_deleteUnowned (table : TableName) (keyColumn : String)
    (owners : Option (List Owner)) (ids : Variable) (callee : Callee) :
    (deleteUnowned table keyColumn owners ids callee).ownerTests =
      Block.tests table keyColumn owners := by
  simp [deleteUnowned, Sql.ownerTests, ownerTests_unowned]

theorem guarded_block (f : DeleteFunction) (b : Block Callee) :
    b.Guarded (block f b).guardedCalls := by
  cases b with
  | selfParts b =>
    cases hd : b.detach with
    | true => exact ⟨[.candidateIds], by simp [block, selfParts, addDeletedParts, hd, guardedCalls,
        Block.callees]⟩
    | false => exact ⟨[], by simp [block, selfParts, addDeletedParts, hd, guardedCalls,
        Block.callees]⟩
  | childCascade b =>
    simp only [block, childCascade]
    split
    · exact ⟨[.candidateIds], by simp [guardedCalls, Block.callees]⟩
    · split
      · exact ⟨[.candidateIds], by simp [guardedCalls, Block.callees]⟩
      · exact ⟨[], by simp [guardedCalls, Block.callees]⟩
  | bridgeCascade b =>
    refine ⟨[.candidateIds], ?_⟩
    cases hc : b.callee <;> simp [block, bridgeCascade, hc, guardedCalls, Block.callees]
  | subtypeDispatch b =>
    obtain ⟨_ | d, _ | ⟨c, cases⟩, hooks⟩ := b <;>
      simp [Block.Guarded, block, subtypeDispatch, typedDispatch, subtypeCase, hook, guardedCalls,
        List.flatMap_map, ← List.map_eq_flatMap]
  | localDelete captured =>
    refine ⟨[], ?_⟩
    simp [block, localDelete, guardedCalls, Block.callees, List.flatMap_map]
  | referencedCleanup b =>
    exact ⟨[.refIds b.slot], by simp [block, referencedCleanup, guardedCalls, Block.callees]⟩
  | parentCascade callee => simp [Block.Guarded, block, parentCascade, guardedCalls]

/-- A block that calls a function tests for all owners of its check. -/
theorem ownerTests_block (f : DeleteFunction) (b : Block Callee) :
    (block f b).ownerTests = if b.callees.isEmpty then [] else b.checks := by
  cases b with
  | selfParts b =>
    cases hd : b.detach <;>
      simp [block, selfParts, addDeletedParts, hd, Sql.ownerTests, Block.callees, Block.checks]
  | childCascade b =>
    simp only [block, childCascade]
    split
    · simp [Sql.ownerTests, Block.callees, Block.checks]
    · split
      · simp [Sql.ownerTests, Block.callees, Block.checks]
      · rename_i hnone
        simp [Sql.ownerTests, Block.callees, Block.checks, Block.tests,
          Option.not_isSome_iff_eq_none.1 hnone]
  | bridgeCascade b =>
    cases hc : b.callee <;>
      simp [block, bridgeCascade, hc, Sql.ownerTests, Block.callees, Block.checks]
  | subtypeDispatch b =>
    obtain ⟨_ | d, _ | ⟨c, cases⟩, hooks⟩ := b <;>
      simp [block, subtypeDispatch, typedDispatch, subtypeCase, hook, Sql.ownerTests,
        List.flatMap_map, Block.checks]
  | localDelete captured =>
    simp [block, localDelete, Sql.ownerTests, Block.checks, List.flatMap_map]
  | referencedCleanup b =>
    simp [block, referencedCleanup, Sql.ownerTests, Block.callees, Block.checks]
  | parentCascade callee => simp [block, parentCascade, Sql.ownerTests, Block.checks]

end Postgres

namespace Oracle

open Sql (guardedCalls)

/-- The ids that are left after the tests must not be none either. -/
theorem guardedCalls_deleteUnowned (table : TableName) (keyColumn : String)
    (owners : Option (List Owner)) (callee : Callee) : ∃ ids : List Variable,
    (deleteUnowned table keyColumn owners callee).guardedCalls =
      [(ids.map .notEmpty, callee.function, .fromOwner)] := by
  rcases owners with _ | _ | ⟨o, owners⟩
  · exact ⟨[.candidateIds], by simp [deleteUnowned, guardedCalls]⟩
  · exact ⟨[.candidateIds], by simp [deleteUnowned, guardedCalls]⟩
  · exact ⟨[.candidateIds, .targetIds], by simp [deleteUnowned, guardedCalls]⟩

@[simp] theorem ownerTests_deleteUnowned (table : TableName) (keyColumn : String)
    (owners : Option (List Owner)) (callee : Callee) :
    (deleteUnowned table keyColumn owners callee).ownerTests =
      Block.tests table keyColumn owners := by
  rcases owners with _ | _ | ⟨o, owners⟩ <;> simp [deleteUnowned, Sql.ownerTests, Block.tests]

theorem guarded_block (f : DeleteFunction) (b : Block Callee) :
    b.Guarded (block f b).guardedCalls := by
  cases b with
  | selfParts b =>
    refine ⟨[.candidateIds], ?_⟩
    cases hd : b.detach <;> simp [block, selfParts, hd, guardedCalls, Block.callees]
  | childCascade b =>
    obtain ⟨ids, hids⟩ := guardedCalls_deleteUnowned b.child b.childKey b.ownerCheck b.callee
    refine ⟨ids, ?_⟩
    cases hd : b.detach <;> simp [block, childCascade, hd, hids, guardedCalls, Block.callees]
  | bridgeCascade b =>
    cases hc : b.callee with
    | none => exact ⟨[], by simp [block, bridgeCascade, hc, guardedCalls, Block.callees]⟩
    | some callee =>
      obtain ⟨ids, hids⟩ := guardedCalls_deleteUnowned b.target b.targetKey b.ownerCheck callee
      exact ⟨ids, by simp [block, bridgeCascade, hc, hids, guardedCalls, Block.callees]⟩
  | subtypeDispatch b =>
    obtain ⟨_ | d, _ | ⟨c, cases⟩, hooks⟩ := b <;>
      simp [Block.Guarded, block, subtypeDispatch, typedDispatch, subtypeCase, hook, guardedCalls,
        List.flatMap_map, ← List.map_eq_flatMap]
  | localDelete captured =>
    refine ⟨[], ?_⟩
    simp [block, localDelete, guardedCalls, Block.callees, List.flatMap_map]
  | referencedCleanup b =>
    obtain ⟨ids, hids⟩ := guardedCalls_deleteUnowned b.target b.targetKey b.ownerCheck b.callee
    exact ⟨ids, by simp [block, referencedCleanup, hids, guardedCalls, Block.callees]⟩
  | parentCascade callee => simp [Block.Guarded, block, parentCascade, guardedCalls]

theorem ownerTests_block (f : DeleteFunction) (b : Block Callee) :
    (block f b).ownerTests = if b.callees.isEmpty then [] else b.checks := by
  cases b with
  | selfParts b =>
    cases hd : b.detach <;>
      simp [block, selfParts, hd, Sql.ownerTests, Block.callees, Block.checks]
  | childCascade b =>
    cases hd : b.detach <;>
      simp [block, childCascade, hd, Sql.ownerTests, Block.callees, Block.checks]
  | bridgeCascade b =>
    cases hc : b.callee <;>
      simp [block, bridgeCascade, hc, Sql.ownerTests, Block.callees, Block.checks]
  | subtypeDispatch b =>
    obtain ⟨_ | d, _ | ⟨c, cases⟩, hooks⟩ := b <;>
      simp [block, subtypeDispatch, typedDispatch, subtypeCase, hook, Sql.ownerTests,
        List.flatMap_map, Block.checks]
  | localDelete captured =>
    simp [block, localDelete, Sql.ownerTests, Block.checks, List.flatMap_map]
  | referencedCleanup b =>
    simp [block, referencedCleanup, Sql.ownerTests, Block.callees, Block.checks]
  | parentCascade callee => simp [block, parentCascade, Sql.ownerTests, Block.checks]

end Oracle

/-! ## The text as it is written -/

namespace Spelling

/-- **How a written text shows calls and tests**: it is put together of calls
with their ids, conditional statements, tests and other text. -/
inductive Shows (p : Spelling) :
    String → List (List Guard × String × Caller) → List OwnerTest → Prop
  | plain (s : String) : Shows p s [] []
  | test (t : OwnerTest) : Shows p (p.ownerTest t) [] [t]
  | call {ids : String} {calls : List (List Guard × String × Caller)} {tests : List OwnerTest}
      (function : String) (caller : Caller) (arguments : Shows p ids calls tests) :
      Shows p (p.function function ++ "(" ++ ids ++ s!", {caller.code})")
        (calls ++ [([], function, caller)]) tests
  | guarded {body : String} {calls : List (List Guard × String × Caller)} {tests : List OwnerTest}
      (indent : Nat) (guards : List Guard) (statements : Shows p body calls tests) :
      Shows p (blanks indent ++ "IF " ++ " AND ".intercalate (guards.map p.guard) ++ " THEN\n" ++
        body ++ blanks indent ++ "END IF;\n") (calls.map fun (inner, f) => (guards ++ inner, f)) tests
  | append {s s' : String} {calls calls' : List (List Guard × String × Caller)}
      {tests tests' : List OwnerTest} (first : Shows p s calls tests)
      (second : Shows p s' calls' tests') : Shows p (s ++ s') (calls ++ calls') (tests ++ tests')

/-- What is written shows the calls and tests of the text. -/
theorem shows_render (p : Spelling) (x : Sql) :
    p.Shows (p.render x) x.guardedCalls x.ownerTests := by
  induction x with
  | noOwner t => exact .test t
  | call function ids caller ih => exact .call function caller ih
  | guarded indent guards body ih => exact .guarded indent guards ih
  | append a b iha ihb => exact .append iha ihb
  | _ => exact .plain _

end Spelling

/-! ## Both dialects and the run -/

/-- **A dialect renders a block**: what is written shows the calls of the
block, in order and with their callers, let through as in a run, and the tests
for owners of a block that calls a function. -/
structure Dialect.Renders (d : Dialect) (ctx : ScriptContext) (f : DeleteFunction)
    (b : Block Callee) : Prop where
  shows : (d.spelling ctx).Shows ((d.spelling ctx).render (d.block f b))
    (d.block f b).guardedCalls (d.block f b).ownerTests
  calls : (d.block f b).calls = b.sites.map Callee.named
  guarded : b.Guarded (d.block f b).guardedCalls
  callsFor : ∀ caller, (d.block f b).callsFor caller = (b.issued caller 1).map Callee.named
  ownerTests : (d.block f b).ownerTests = if b.callees.isEmpty then [] else b.checks

namespace Dialect

/-- A dispatch to two typed subtypes and one without classes. -/
def vehicles : SubtypeDispatch Callee where
  discriminator := some ⟨⟨"city", "vehicle"⟩, "id", "class_id"⟩
  cases := [⟨[10, 11], ⟨⟨"city", "car"⟩, "del_car"⟩⟩, ⟨[12], ⟨⟨"city", "tram"⟩, "del_tram"⟩⟩]
  hooks := [⟨⟨"city", "antique"⟩, "del_antique"⟩]

/-- A bridge whose far side is not owned, with an owner to look for. -/
def unlinking : BridgeCascade Callee where
  bridge := ⟨"city", "parking"⟩
  nearColumn := "lot_id"
  farColumn := "vehicle_id"
  target := ⟨"city", "vehicle"⟩
  targetKey := "id"
  ownerCheck := some [.ownColumn "owner"]
  callee := none

end Dialect

end DeleteCascade
