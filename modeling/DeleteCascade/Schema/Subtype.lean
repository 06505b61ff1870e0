import DeleteCascade.Schema.Reference
/-!
# Schema — subtypes

A table whose whole primary key references the primary key of another one
stores a part of the same object: it is a subtype of that table. The links
may form chains, diamonds and even loops; the walks here end on all of
them, since each visits a table of the schema once.
-/

namespace DeleteCascade

namespace Schema

/-- Whether the reference makes its child a subtype of its parent. -/
def isSubtypeLink (g : Schema) (r : Reference) : Except LookupError Bool :=
  if !r.childIsKey || r.isSelf then .ok false
  else (g.lookup r.parent).map fun t => t.isKey r.parentColumn

/-- The references that make no subtype and do not point back at their own
table. -/
def isPlainReference (g : Schema) (r : Reference) : Except LookupError Bool :=
  if r.isSelf then .ok false else (g.isSubtypeLink r).map (!·)

/-- The first of these references that makes a subtype. -/
def firstSubtypeLink (g : Schema) : List Reference → Except LookupError (Option Reference)
  | [] => .ok none
  | r :: rest =>
    match g.isSubtypeLink r with
    | .error e => .error e
    | .ok true => .ok (some r)
    | .ok false => g.firstSubtypeLink rest

/-- The link of a table to its supertype. -/
def parentLink (g : Schema) (name : TableName) : Except LookupError (Option Reference) :=
  match g.outgoing name with
  | .error e => .error e
  | .ok rs => g.firstSubtypeLink rs

/-- The references of a table to other tables than its supertypes. -/
def referenced (g : Schema) (name : TableName) : Except LookupError (List Reference) :=
  match g.outgoing name with
  | .error e => .error e
  | .ok rs => rs.filterM g.isPlainReference

/-- Adds the child of a foreign key to the subtypes found so far. -/
def addSubtype (g : Schema) (found : List TableName) (fk : ForeignKey) :
    Except LookupError (List TableName) :=
  match g.resolve fk with
  | .error e => .error e
  | .ok r =>
    match g.isSubtypeLink r with
    | .error e => .error e
    | .ok isLink => .ok (if isLink && !r.child.isIn found then found ++ [r.child] else found)

/-- The direct subtypes of a table, in the order of the foreign keys that
point at it. -/
def subtypes (g : Schema) (name : TableName) : Except LookupError (List TableName) :=
  (g.foreignKeysTo name).foldlM g.addSubtype []

/-- The object classes of the pending tables and of all tables below them,
outside those already visited, after the ones found. -/
def classesBelow (g : Schema) (pending visited : List TableName) (found : List Int) :
    Except LookupError (List Int) :=
  match pending with
  | [] => .ok found
  | t :: rest =>
    if _old : t.isIn visited then g.classesBelow rest visited found
    else
      match _known : g.table? t with
      | none => .error (.unknownTable t.qualified)
      | some table =>
        match g.subtypes t with
        | .error e => .error e
        | .ok below => g.classesBelow (below ++ rest) (t :: visited) (found ++ table.classes)
termination_by (g.countOutside visited, pending.length)
decreasing_by
  · exact Prod.Lex.right _ (by simp)
  · refine Prod.Lex.left _ _ (countOutside_lt (u := t) ?_ ?_ ?_ ?_)
    · intro u hu
      simp only [TableName.isIn, List.any_cons, Bool.or_eq_true] at hu ⊢
      exact Or.inr hu
    · simpa using _old
    · simp [TableName.isIn]
    · simp [_known]

/-- The tables that store object classes, by class, ascending. -/
abbrev ClassMap := List (Int × TableName)

/-- Enters a class with its table unless the class is there. -/
def ClassMap.insertNew (c : Int) (t : TableName) : ClassMap → ClassMap
  | [] => [(c, t)]
  | (d, u) :: rest =>
    if c < d then (c, t) :: (d, u) :: rest
    else if c = d then (d, u) :: rest
    else (d, u) :: insertNew c t rest

/-- The classes that a map gives to a table, ascending. -/
def ClassMap.classesOf (m : ClassMap) (t : TableName) : List Int :=
  (m.filter fun entry => entry.2.same t).map Prod.fst

/-- Enters the classes at and below one subtype of a table. -/
def enterClasses (g : Schema) (name : TableName) (m : ClassMap) (subtype : TableName) :
    Except LookupError ClassMap :=
  match g.classesBelow [subtype] [name] [] with
  | .error e => .error e
  | .ok classes => .ok (classes.foldl (fun m c => m.insertNew c subtype) m)

/-- Which direct subtype of a table leads to each object class below it:
the first one that does. -/
def classMap (g : Schema) (name : TableName) : Except LookupError ClassMap :=
  match g.subtypes name with
  | .error e => .error e
  | .ok subtypes => subtypes.foldlM (g.enterClasses name) []

theorem mem_of_firstSubtypeLink {g : Schema} {rs : List Reference} {r : Reference}
    (h : g.firstSubtypeLink rs = .ok (some r)) : r ∈ rs := by
  induction rs with
  | nil => simp [firstSubtypeLink] at h
  | cons s rest ih =>
    unfold firstSubtypeLink at h
    split at h
    · cases h
    · cases h; simp
    · exact List.mem_cons_of_mem _ (ih h)

/-- The supertype that a table links to is a table of the schema. -/
theorem table?_of_parentLink {g : Schema} {name : TableName} {r : Reference}
    (h : g.parentLink name = .ok (some r)) : (g.table? r.parent).isSome = true := by
  unfold parentLink at h
  split at h
  · cases h
  · rename_i rs hrs
    exact (table?_of_outgoing hrs (mem_of_firstSubtypeLink h)).2

end Schema

end DeleteCascade
