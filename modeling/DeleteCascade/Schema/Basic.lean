import DeleteCascade.Measure
import DeleteCascade.Schema.Ownership
import DeleteCascade.Schema.Table
/-!
# Schema — tables together

A schema lists its tables and the ownership records that came with them.
Where two tables have the same name the first one counts.
-/

namespace DeleteCascade

/-- A named collection of tables with what is known of their ownership. -/
structure Schema where
  name : String
  tables : List Table
  ownership : List OwnershipRecord
  deriving DecidableEq, Inhabited

namespace Schema

/-- The table of this identity. -/
def table? (g : Schema) (name : TableName) : Option Table := g.tables.find? (·.name.same name)

/-- The name of a table in this schema itself. -/
def named (g : Schema) (name : String) : TableName := ⟨g.name, name⟩

/-- The first table of this name, in whichever schema. -/
def find? (g : Schema) (name : String) : Option Table :=
  g.tables.find? fun t => sameName t.name.name name

/-- All foreign keys, table by table. -/
def foreignKeys (g : Schema) : List ForeignKey := g.tables.flatMap (·.foreignKeys)

/-- The foreign keys that point at a table. -/
def foreignKeysTo (g : Schema) (name : TableName) : List ForeignKey :=
  g.foreignKeys.filter (·.target.same name)

/-- How many tables are not among the given names. -/
def countOutside (g : Schema) (names : List TableName) : Nat :=
  g.tables.countP fun t => !t.name.isIn names

theorem table?_congr (g : Schema) {a b : TableName} (h : a.same b = true) :
    g.table? a = g.table? b := by
  simp only [table?]
  congr 1
  funext t
  rw [TableName.same_comm, TableName.same_congr_left h, TableName.same_comm]

theorem mem_of_table? {g : Schema} {name : TableName} {t : Table} (h : g.table? name = some t) :
    t ∈ g.tables ∧ t.name.same name = true :=
  ⟨List.mem_of_find?_eq_some h, List.find?_some (p := fun u : Table => u.name.same name) h⟩

/-- Naming more tables leaves no more of them outside. -/
theorem countOutside_le {g : Schema} {names more : List TableName}
    (h : ∀ t : TableName, t.isIn names = true → t.isIn more = true) :
    g.countOutside more ≤ g.countOutside names := by
  refine List.countP_mono_left fun t _ ht => ?_
  simp only [Bool.not_eq_true'] at ht ⊢
  exact Bool.eq_false_iff.2 fun hin => Bool.eq_false_iff.1 ht (h _ hin)

/-- Naming one more table of the schema leaves fewer of them outside. -/
theorem countOutside_lt {g : Schema} {names more : List TableName} {u : TableName}
    (hmore : ∀ t : TableName, t.isIn names = true → t.isIn more = true)
    (hold : u.isIn names = false) (hnew : u.isIn more = true)
    (hknown : (g.table? u).isSome = true) :
    g.countOutside more < g.countOutside names := by
  obtain ⟨t, ht⟩ := Option.isSome_iff_exists.1 hknown
  obtain ⟨hmem, hsame⟩ := mem_of_table? ht
  have hcongr := TableName.isIn_congr hsame
  refine countP_lt_countP (a := t) (fun v hv => ?_) hmem (by simp [hcongr, hold])
    (by simp [hcongr, hnew])
  simp only [Bool.not_eq_true'] at hv ⊢
  exact Bool.eq_false_iff.2 fun hin => Bool.eq_false_iff.1 hv (hmore _ hin)

end Schema

end DeleteCascade
