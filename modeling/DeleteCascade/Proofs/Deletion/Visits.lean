import DeleteCascade.Proofs.Deletion.Composition
import DeleteCascade.Proofs.Synthesis.Fronts
import DeleteCascade.Proofs.Synthesis.Owners
/-!
# Deletion — what stands in the way of a deletion

Rows are deleted one statement after the other, and a statement fails if a
row is left that points at one of its own. So it takes more than that all
such rows go in the end: they have to be gone, or to go along, when their
turn comes. What a run may come across is told by `Visit`, a call seen
before the run: the rows that it may be for, and for each of them what is
gone by then for sure (`Arrival`). Visits lead to others like the functions
call each other (`Leads`), and a deletion is `Unobstructed` if at no visit
a row is pointed at by one that is in the way.
-/

namespace DeleteCascade

/-- How a row comes to be deleted. -/
structure Arrival where
  /-- Rows that are gone by then. -/
  gone : Doom
  /-- Rows of the same table that are in the batch as well, if they are
  still there. The row is one of them. -/
  mates : Int → Prop

/-- **A call that a run may come to**, seen before the run. -/
structure Visit where
  table : TableName
  caller : Caller
  /-- Whether a row is in the batch only if nothing else owns it. -/
  shared : Prop
  /-- Rows whose deletion is under way or still to come. -/
  doomed : Doom
  /-- The rows that the batch may have, with the way they come there. -/
  rows : Int → Arrival → Prop

namespace Setting

variable (σ : Setting) (st : Store)

/-- **Every object says what it is**: a row of a subtype that stores classes
has one of them where the class of the object is stored. -/
def Discriminates : Prop :=
  ∀ t u classes place v, σ.schema.IsSubtype u t → σ.schema.classMap t = .ok classes →
    classes.classesOf u ≠ [] → (σ.findDiscriminator t).outcome = .ok place → st.HasRow u v →
      ∃ c ∈ classes.classesOf u, (Fact.cell place.table v place.column c).Holds st

/-- **A well-kept store**: what a database keeps up, in a strict schema that
lists the columns of its foreign keys. Every object says what it is, and no
foreign key is about that. -/
structure WellKept : Prop where
  strict : σ.schema.Strict
  schema : st.schema = σ.schema
  unique : st.UniqueKeys
  given : st.KeysGiven
  whole : st.NoDangling
  listed : ∀ u c t, σ.schema.Link u c t → ∃ d, σ.schema.table? u = some d ∧ (d.column? c).isSome
  discriminates : σ.Discriminates st
  unlinked : ∀ t place, (σ.findDiscriminator t).outcome = .ok place →
    ∀ w, ¬ σ.schema.Link place.table place.column w

/-- The subtype is called before the rows of `t` go: always if it stores no
classes, and else unless one of the subtypes is the caller. -/
def DispatchesTo (caller : Caller) (t u : TableName) : Prop :=
  σ.schema.IsSubtype u t ∧ (caller.skipsSubtypes = true → ¬ σ.Typed t u)

/-- **What is tied to a row** at a front of its table. -/
inductive Tied (t : TableName) (caller : Caller) : Front → (v : Int) → Doom
  | part {r : Reference} {u : TableName} {x v : Int} (same : r.child.same u)
      (cell : (Fact.cell u x r.childColumn v).Holds st) : Tied t caller (.part r) v u x
  | child {i : Incoming} {u : TableName} {x v : Int} (plain : ∀ b, i.shape ≠ .bridge b)
      (notKey : i.reference.childIsKey = false) (same : i.reference.child.same u)
      (cell : (Fact.cell u x i.reference.childColumn v).Holds st) : Tied t caller (.enters i) v u x
  | far {i : Incoming} {b : Bridge} {u : TableName} {x v : Int} {q : Row}
      (shape : i.shape = .bridge b) (same : b.farTable.same u) (row : q ∈ st.rows b.table)
      (near : q.get? b.nearColumn = some v) (far : q.get? b.farColumn = some x) :
      Tied t caller (.enters i) v u x
  | subtype {u : TableName} {v : Int} (dispatches : σ.DispatchesTo caller t u) :
      Tied t caller .subtypes v u v

/-- **What goes with some rows** by composition, but for what goes only with
rows in `D`. -/
inductive Follows (D H : Doom) : Doom
  | head {u : TableName} {x : Int} (head : H u x) : Follows D H u x
  | part {t u : TableName} {c : String} {v x : Int} (whole : Follows D H t v) (free : ¬ D t v)
      (link : σ.schema.Link u c t) (means : σ.Means u t c .composition)
      (cell : (Fact.cell u x c v).Holds st) : Follows D H u x
  | target {t u : TableName} {c : String} {v x : Int} (whole : Follows D H t v) (free : ¬ D t v)
      (link : σ.schema.Link t c u) (other : t.same u = false) (means : σ.Means u t c .composition)
      (cell : (Fact.cell t v c x).Holds st) : Follows D H u x
  | far {t u : TableName} {b : Bridge} {q : Row} {v x : Int} (whole : Follows D H t v)
      (free : ¬ D t v) (bridge : σ.schema.IsBridge t b) (same : b.farTable.same u)
      (means : σ.Means b.farTable t b.table.name .composition) (row : q ∈ st.rows b.table)
      (near : q.get? b.nearColumn = some v) (far : q.get? b.farColumn = some x) : Follows D H u x
  | subtype {t u : TableName} {v : Int} (whole : Follows D H t v) (free : ¬ D t v)
      (isSubtype : σ.schema.IsSubtype u t) : Follows D H u v
  | supertype {t u : TableName} {v : Int} (whole : Follows D H t v) (free : ¬ D t v)
      (isSubtype : σ.schema.IsSubtype t u) (row : st.HasRow t v) : Follows D H u v

end Setting

namespace Visit

variable (V : Visit) (σ : Setting) (st : Store)

/-- Rows whose deletion is under way during the visit. -/
def busy : Doom := fun u y => V.doomed u y ∨ (V.table.same u ∧ ∃ a, V.rows y a)

/-- What is composed of a row, or of one that goes along, at one of these
fronts. -/
def heads (done : List Front) (a : Arrival) : Doom := fun u x =>
  ∃ v, a.mates v ∧ ∃ l ∈ done, σ.Tied st V.table V.caller l v u x ∧
    ∀ w link, l.owned? = some (w, link) → σ.Means w V.table link .composition

/-- **What is gone after some fronts**: what was before, and what is
composed at these fronts, with all that goes with it. -/
def swept (done : List Front) (a : Arrival) : Doom := fun u y =>
  a.gone u y ∨ (¬ V.busy u y ∧ σ.Follows st V.busy (V.heads σ st done a) u y)

/-- What is gone when the rows are. -/
def after (done : List Front) (a : Arrival) : Doom := fun u y =>
  V.swept σ st done a u y ∨ (V.table.same u ∧ a.mates y)

/-- What has to follow the rows when they are gone: what they point at and
is composed of them, and the rows of the supertype. -/
def owed : Doom := fun u y => ∃ v a, V.rows v a ∧
  ((∃ c, σ.schema.Link V.table c u ∧ V.table.same u = false ∧
      σ.Classifies u V.table c .composition ∧ (Fact.cell V.table v c y).Holds st) ∨
    (σ.schema.IsSubtype V.table u ∧ y = v))

/-- What is under way or to come when the rows are gone. -/
def pending : Doom := fun u y => V.doomed u y ∨ V.owed σ st u y

/-! ## Where a visit leads -/

/-- The visit of what is tied to the rows at a front, when those `before`
are done with. -/
def toOwned (before : List Front) (l : Front) (u : TableName) (link : String) : Visit where
  table := u
  caller := .fromOwner
  shared := l.isChecked = true ∧ σ.Means u V.table link .aggregation
  doomed := V.busy
  rows x arrival := ¬ arrival.gone u x ∧ ∃ v a, V.rows v a ∧
    σ.Tied st V.table V.caller l v u x ∧ arrival = ⟨V.swept σ st before a, fun y => y = x ∨
      (σ.Means u V.table link .composition ∧ ¬ V.busy u y ∧
        ∃ w, a.mates w ∧ σ.Tied st V.table V.caller l w u y)⟩

/-- The visit of a subtype. One that stores classes is called for one object
at a time. -/
def toSubtype (before : List Front) (u : TableName) : Visit where
  table := u
  caller := .fromParent
  shared := False
  doomed := V.busy
  rows v arrival := ¬ arrival.gone u v ∧ ∃ a, V.rows v a ∧
    arrival = ⟨V.swept σ st before a, fun y => y = v ∨ (¬ σ.Typed V.table u ∧ a.mates y)⟩

/-- The visit of what the rows pointed at. -/
def toTarget (done : List Front) (u : TableName) (c : String) : Visit where
  table := u
  caller := .fromOwner
  shared := σ.Means u V.table c .aggregation
  doomed := V.pending σ st
  rows x arrival := ¬ arrival.gone u x ∧ ∃ v a, V.rows v a ∧ (Fact.cell V.table v c x).Holds st ∧
    arrival = ⟨V.after σ st done a, fun y => y = x ∨ (σ.Means u V.table c .composition ∧
      ¬ V.doomed u y ∧ ∃ w, a.mates w ∧ (Fact.cell V.table w c y).Holds st)⟩

/-- The visit of the supertype. -/
def toSupertype (done : List Front) (u : TableName) : Visit where
  table := u
  caller := .fromSubtype
  shared := False
  doomed := V.pending σ st
  rows v arrival := ¬ arrival.gone u v ∧ ∃ a, V.rows v a ∧
    arrival = ⟨V.after σ st done a, fun y => y = v ∨
      (a.mates y ∧ ¬ V.doomed u y ∧ st.HasRow V.table y)⟩

/-- **Visits lead to visits** as functions call each other: for what the
rows own at a front, for their subtypes, for what they point at and own,
and for their supertype. -/
inductive Leads : Visit → Visit → Prop
  | owned {V : Visit} {before after : List Front} {l : Front} {u : TableName} {link : String}
      {kind : Relation} (fronts : σ.schema.fronts V.table = .ok (before ++ l :: after))
      (owned : l.owned? = some (u, link)) (classified : σ.Classifies u V.table link kind)
      (deletes : l.Deletes kind) : Leads V (V.toOwned σ st before l u link)
  | subtype {V : Visit} {before after : List Front} {u : TableName}
      (fronts : σ.schema.fronts V.table = .ok (before ++ .subtypes :: after))
      (dispatches : σ.DispatchesTo V.caller V.table u) : Leads V (V.toSubtype σ st before u)
  | target {V : Visit} {done : List Front} {u : TableName} {c : String}
      (fronts : σ.schema.fronts V.table = .ok done) (link : σ.schema.Link V.table c u)
      (other : V.table.same u = false)
      (notKey : ∀ k, σ.schema.key? V.table = some k → sameName k c = false)
      (owns : σ.MayOwn u V.table c) : Leads V (V.toTarget σ st done u c)
  | supertype {V : Visit} {done : List Front} {u : TableName}
      (fronts : σ.schema.fronts V.table = .ok done) (isSubtype : σ.schema.IsSubtype V.table u)
      (calls : V.caller.skipsParent = false) : Leads V (V.toSupertype σ st done u)

/-- The visit that a client's call is. -/
def start (root : TableName) (ids : List Int) : Visit where
  table := root
  caller := .external
  shared := False
  doomed := .nothing
  rows v arrival := v ∈ ids ∧ arrival = ⟨.nothing, fun y => y ∈ ids⟩

/-! ## What is in the way -/

/-- **A link that the visited function clears** before it deletes its rows:
parts and children in any case, bridges, and the subtypes that it calls. -/
inductive Clears (u : TableName) (c : String) : Prop
  | part (same : u.same V.table) (means : σ.Means u V.table c .composition)
  | child (other : u.same V.table = false)
      (notKey : ∀ k, σ.schema.key? u = some k → sameName k c = false)
      (all : ∀ kind, σ.Classifies u V.table c kind → kind.isOwning = true)
  | bridge (links : σ.schema.LinksBy V.table u c)
  | subtype (dispatches : σ.DispatchesTo V.caller V.table u)
      (key : ∀ k, σ.schema.key? u = some k → sameName k c = true)

/-- **A row that points at a row of the visit and is not in the way**: it
goes along, it is gone by then, or it is an owner that keeps the row. -/
inductive Excuses (done : List Front) (a : Arrival) (u : TableName) (c : String) (q : Row) : Prop
  | mate {k : String} {y : Int} (same : u.same V.table) (key : σ.schema.key? u = some k)
      (value : q.get? k = some y) (mate : a.mates y)
  | gone {k : String} {y : Int} (key : σ.schema.key? u = some k) (value : q.get? k = some y)
      (gone : V.swept σ st done a u y)
  | owner (shared : V.shared) (other : u.same V.table = false)
      (notKey : ∀ k, σ.schema.key? u = some k → sameName k c = false)
      (all : ∀ kind, σ.Classifies V.table u c kind → kind.isOwning = true)

/-- **Nothing is in the way of a visit**: no row is pointed at by another,
unless over a link that is cleared before, or by a row with an excuse. -/
def Unhindered : Prop :=
  ∀ done, σ.schema.fronts V.table = .ok done → ∀ v a, V.rows v a →
    ∀ u c, σ.schema.Link u c V.table → ∀ q ∈ st.rows u, q.get? c = some v →
      V.Clears σ u c ∨ V.Excuses σ st done a u c q

end Visit

/-- **Nothing is in the way of a deletion**, of all that the run may come
to. -/
def Setting.Unobstructed (σ : Setting) (st : Store) (root : TableName) (ids : List Int) : Prop :=
  ∀ V, Relation.ReflTransGen (Visit.Leads σ st) (.start root ids) V → V.Unhindered σ st

end DeleteCascade
