/-!
# Functions — callers

A delete function is told who calls it, so that it can leave out the one
step that would lead straight back: a subtype called by its supertype does
not delete the supertype's row, and a supertype called by its subtype does
not look for the subtype's row. Clients and owners suppress nothing.
-/

namespace DeleteCascade

/-- Who calls a delete function. -/
inductive Caller where
  /-- A client. -/
  | external
  /-- The function of rows that own the ones to delete. -/
  | fromOwner
  /-- The function of the supertype. -/
  | fromParent
  /-- The function of a subtype. -/
  | fromSubtype
  deriving DecidableEq, Inhabited

namespace Caller

/-- The number that stands for the caller in a script. -/
def code : Caller → Nat
  | external => 0
  | fromSubtype => 1
  | fromParent => 2
  | fromOwner => 3

/-- The callers, in the order of their names. -/
def all : List Caller := [external, fromOwner, fromParent, fromSubtype]

/-- The name of the caller. -/
def name : Caller → String
  | external => "External"
  | fromOwner => "FromOwner"
  | fromParent => "FromParent"
  | fromSubtype => "FromSubtype"

/-- Whether the typed subtypes are left alone. -/
def skipsSubtypes : Caller → Bool
  | fromSubtype => true
  | _ => false

/-- Whether the supertype is left alone. -/
def skipsParent : Caller → Bool
  | fromParent => true
  | _ => false

theorem mem_all (c : Caller) : c ∈ all := by cases c <;> decide

theorem code_injective {a b : Caller} (h : a.code = b.code) : a = b := by
  cases a <;> cases b <;> simp_all [code]

end Caller

end DeleteCascade
