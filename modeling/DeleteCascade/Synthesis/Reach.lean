import DeleteCascade.Function.Registry
/-!
# Synthesis — which calls lead where

Whether a call of one table's function can lead to a call of another
table's function. A call is a table with the caller passed to its function,
since the caller decides which blocks are left out. The search ends on all
registries: it expands each call of a registered function once.
-/

namespace DeleteCascade

namespace Registry

/-- A call of a table's function. -/
abbrev Call := TableName × Caller

/-- Whether two calls are the same. -/
def sameCall (a b : Call) : Bool := a.1.same b.1 && a.2 == b.2

/-- The calls that a call makes. -/
def callsOf (r : Registry) (call : Call) : List Call :=
  match r.get? call.1 with
  | some f => (f.calls call.2).map fun c => (c.1.table, c.2)
  | none => []

/-- How many calls of registered functions have not been seen. -/
def countUnseen (r : Registry) (seen : List Call) : Nat :=
  (r.records.flatMap fun e => Caller.all.map fun c => (e.function.table, c)).countP
    fun call => !seen.any (sameCall call)

theorem sameCall_refl (a : Call) : sameCall a a = true := by simp [sameCall]

theorem sameCall_congr_left {a b : Call} (h : sameCall a b = true) (c : Call) :
    sameCall a c = sameCall b c := by
  simp only [sameCall, Bool.and_eq_true, beq_iff_eq] at h ⊢
  rw [TableName.same_congr_left h.1, h.2]

/-- Seeing a call of a registered function leaves fewer of them unseen. -/
theorem countUnseen_lt {r : Registry} {call : Call} {seen : List Call} {f : DeleteFunction}
    (hf : r.get? call.1 = some f) (hnew : seen.any (sameCall call) = false) :
    r.countUnseen (call :: seen) < r.countUnseen seen := by
  simp only [get?, record?, Option.map_eq_some_iff] at hf
  obtain ⟨e, he, -⟩ := hf
  have hsame := List.find?_some (p := fun f : FunctionRecord => f.function.table.same call.1) he
  have hcall : sameCall (e.function.table, call.2) call = true := by simp [sameCall, hsame]
  have hcongr : seen.any (sameCall (e.function.table, call.2)) = seen.any (sameCall call) := by
    congr 1
    funext c
    exact sameCall_congr_left hcall c
  refine countP_lt_countP (a := (e.function.table, call.2)) (fun c hc => ?_) ?_ ?_ ?_
  · simp only [List.any_cons, Bool.not_or, Bool.and_eq_true] at hc
    exact hc.2
  · exact List.mem_flatMap.2 ⟨e, List.mem_of_find?_eq_some he,
      List.mem_map.2 ⟨call.2, Caller.mem_all _, rfl⟩⟩
  · simp [hcongr, hnew]
  · simp [hcall]

/-- Whether one of the pending calls leads to a call of the target's
function, not counting what the calls in `seen` make. -/
def search (r : Registry) (target : TableName) (pending seen : List Call) : Bool :=
  match pending with
  | [] => false
  | call :: rest =>
    if call.1.same target then true
    else if _old : seen.any (sameCall call) then r.search target rest seen
    else
      match _known : r.get? call.1 with
      | none => r.search target rest seen
      | some _ => r.search target (r.callsOf call ++ rest) (call :: seen)
termination_by (r.countUnseen seen, pending.length)
decreasing_by
  · exact Prod.Lex.right _ (by simp)
  · exact Prod.Lex.right _ (by simp)
  · exact Prod.Lex.left _ _ (countUnseen_lt _known (by simpa using _old))

/-- Whether a function called by an owner can lead to a call of the
target's function. -/
def ownerCallReaches (r : Registry) (start target : TableName) : Bool :=
  r.search target [(start, .fromOwner)] []

end Registry

end DeleteCascade
