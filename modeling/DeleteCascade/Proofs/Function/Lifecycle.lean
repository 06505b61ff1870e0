import DeleteCascade.Proofs.Function.History
/-!
# Registry — written once

A function is named, then the visit of its table begins, and then it is
written: this is the way it goes (`Advances`) if it is written when its visit
is under way. Nothing but writing can make it go another way. `Turns` says what
a call makes of a registry, with the state in which a visit begins, and
`Admits` which calls come in order; `writtenOnce_iff` says that calls in order
are exactly those after which every function was written once.
-/

namespace DeleteCascade

/-- **One step on the way of a function.** A function that is new is reserved,
and its visit may begin with the call that names it. -/
inductive VisitState.Advances : Option VisitState → Option VisitState → Prop
  | stays (state : Option VisitState) : Advances state state
  | named : Advances none (some .reserved)
  | namedAndBegun : Advances none (some .inProgress)
  | begun : Advances (some .reserved) (some .inProgress)
  | written : Advances (some .inProgress) (some .done)

namespace Registry

open VisitState (Advances)

variable {r r' : Registry} {c : Request} {t u : TableName} {name keyColumn : String}
variable {blocks : List (Block Callee)} {f : DeleteFunction}

/-! ## What the parts of a call change -/

/-- Only tables that have a function are visited. -/
def VisitsNamed (r : Registry) : Prop :=
  ∀ t, t.isIn r.visited = true → ∃ e, r.record? t = some e

theorem VisitsNamed.new (namer : Namer) : (new namer).VisitsNamed := by
  intro t ht
  cases ht

theorem state?_eq_none : r.state? t = none ↔ r.record? t = none := Option.map_eq_none_iff

theorem exists_get?_of_done (h : r.state? t = some .done) : ∃ f, r.get? t = some f := by
  obtain ⟨e, he, -⟩ := state?_eq_done.1 h
  exact ⟨e.function, by rw [get?, he, Option.map_some]⟩

/-- Naming a table leaves the others alone, and the table as well if it has a
function. -/
theorem record?_reserve (h : r.reserve t = .ok (name, r')) (u : TableName) :
    r'.record? u = r.record? u ∨
      (r.record? u = none ∧ r'.record? u = some ⟨.unwritten t name, false⟩) := by
  rcases reserve_eq_ok h with ⟨e, -, -, rfl⟩ | ⟨-, namer, -, rfl⟩
  · exact Or.inl rfl
  · have happend : record? { r with namer, records := r.records ++ [⟨.unwritten t name, false⟩] } u =
        (r.record? u).or (if t.same u = true then some ⟨.unwritten t name, false⟩ else none) := by
      rw [record?, List.find?_append, List.find?_singleton]
      rfl
    rw [happend]
    cases r.record? u with
    | some e => exact Or.inl rfl
    | none =>
      by_cases hsame : t.same u = true
      · exact Or.inr ⟨rfl, by rw [if_pos hsame, Option.none_or]⟩
      · exact Or.inl (by rw [if_neg hsame, Option.none_or])

/-- A table that gets its name with a call is reserved then. -/
theorem state?_reserve (hr : r.VisitsNamed) (h : r.reserve t = .ok (name, r')) (u : TableName) :
    r'.state? u = r.state? u ∨ (r.state? u = none ∧ r'.state? u = some .reserved) := by
  have hvisited : r'.visited = r.visited := visited_reserve h
  rcases record?_reserve h u with heq | ⟨hnone, hsome⟩
  · left
    rw [state?, state?, heq, hvisited]
  · right
    refine ⟨state?_eq_none.2 hnone, ?_⟩
    -- a table without a function was not visited, so it is not in progress now
    have hfresh : ¬ u.isIn r.visited = true := by
      intro hin
      obtain ⟨e, he⟩ := hr u hin
      rw [hnone] at he
      cases he
    rw [state?, hsome, hvisited, Option.map_some, if_neg Bool.false_ne_true, if_neg hfresh]

theorem get?_reserve (h : r.reserve t = .ok (name, r')) (hf : r.get? u = some f) :
    r'.get? u = some f := by
  rcases record?_reserve h u with heq | ⟨hnone, -⟩
  · rw [get?, heq]
    exact hf
  · rw [get?, hnone] at hf
    cases hf

/-- A visit that begins is under way, and touches no other. -/
theorem state?_visit (h : r.state? t = some .reserved) (u : TableName) :
    state? { r with visited := r.visited ++ [t] } u =
      if t.same u = true then some .inProgress else r.state? u := by
  have hrecord : record? { r with visited := r.visited ++ [t] } u = r.record? u := rfl
  by_cases hsame : t.same u = true
  · obtain ⟨e, he, hstate⟩ := Option.map_eq_some_iff.1 h
    have hopen : ¬ e.isDone = true := by
      intro hdone
      rw [if_pos hdone] at hstate
      cases hstate
    have hin : u.isIn (r.visited ++ [t]) = true := by
      rw [TableName.isIn_concat, TableName.same_comm u t, hsame, Bool.or_true]
    rw [if_pos hsame, state?, hrecord, ← record?_congr hsame, he, Option.map_some, if_neg hopen,
      if_pos hin]
  · have hin : u.isIn (r.visited ++ [t]) = u.isIn r.visited := by
      rw [TableName.isIn_concat, TableName.same_comm u t, Bool.eq_false_iff.2 hsame, Bool.or_false]
    rw [if_neg hsame, state?, state?, hrecord, hin]

theorem record?_complete (t : TableName) (keyColumn : String) (blocks : List (Block Callee))
    (u : TableName) :
    (r.complete t keyColumn blocks).record? u = (r.record? u).map fun e =>
      if t.same u = true then ⟨{ e.function with keyColumn, blocks }, true⟩ else e := by
  rw [complete, record?_modify (keepsIdentity_complete keyColumn blocks)]
  cases he : r.record? u with
  | none => rfl
  | some e =>
    have hsame : e.function.table.same t = t.same u := by
      rw [TableName.same_congr_left (mem_of_record? he).2, TableName.same_comm]
    rw [Option.map_some, Option.map_some, hsame]

/-- A function that is written is done, and the others are as far as before. -/
theorem state?_complete (t : TableName) (keyColumn : String) (blocks : List (Block Callee))
    (u : TableName) :
    (r.complete t keyColumn blocks).state? u =
      if t.same u = true then (r.state? u).map fun _ => .done else r.state? u := by
  rw [state?, state?, record?_complete, visited_complete]
  by_cases hsame : t.same u = true <;> cases r.record? u <;> simp [hsame]

theorem get?_complete (t : TableName) (keyColumn : String) (blocks : List (Block Callee))
    (u : TableName) :
    (r.complete t keyColumn blocks).get? u =
      (r.get? u).map fun f => if t.same u = true then { f with keyColumn, blocks } else f := by
  rw [get?, get?, record?_complete]
  by_cases hsame : t.same u = true <;> cases r.record? u <;> simp [hsame]

/-! ## One call -/

/-- **What a call makes of a registry**: nothing, or it names a table, or it
begins the visit of a table that is reserved, or it writes a function. -/
inductive Turns (r : Registry) : Request → Registry → Prop
  | nothing {c : Request} : Turns r c r
  | names {c : Request} {t : TableName} {name : String} {r' : Registry}
      (reserved : r.reserve t = .ok (name, r')) : Turns r c r'
  | begins {t : TableName} {name : String} {r' : Registry}
      (reserved : r.reserve t = .ok (name, r')) (fresh : r'.state? t = some .reserved) :
      Turns r (.beginVisit t) { r' with visited := r'.visited ++ [t] }
  | writes (t : TableName) (keyColumn : String) (blocks : List (Block Callee)) :
      Turns r (.complete t keyColumn blocks) (r.complete t keyColumn blocks)

theorem turns_beginVisit {begins : Bool} (h : r.beginVisit t = .ok (begins, r')) :
    r.Turns (.beginVisit t) r' := by
  unfold beginVisit at h
  split at h
  · cases h
  · rename_i name r₁ hreserve
    split at h
    · rename_i hfresh
      cases h
      exact .begins hreserve hfresh
    · cases h
      exact .names hreserve

theorem turns_step (r : Registry) (c : Request) : r.Turns c (r.step c).2 := by
  cases c with
  | reserve t =>
    change r.Turns _ (r.settle ((r.reserve t).map _)).2
    cases h : r.reserve t with
    | error e => exact .nothing
    | ok named => exact .names h
  | register t =>
    change r.Turns _ (r.settle ((r.register t).map _)).2
    unfold Registry.register
    cases h : r.reserve t with
    | error e => exact .nothing
    | ok named => exact .names h
  | beginVisit t =>
    change r.Turns _ (r.settle ((r.beginVisit t).map _)).2
    cases h : r.beginVisit t with
    | error e => exact .nothing
    | ok begun => exact turns_beginVisit h
  | complete t keyColumn blocks => exact .writes t keyColumn blocks

/-- **A call that comes in order.** A function is written when the visit of its
table is under way. Nothing comes of writing one that there is not, or of
writing a finished one as it stands. -/
def Admits (r : Registry) : Request → Prop
  | .complete t keyColumn blocks =>
    r.state? t = none ∨ r.state? t = some .inProgress ∨
      (r.state? t = some .done ∧ ∃ f, r.get? t = some f ∧ f.keyColumn = keyColumn ∧
        f.blocks = blocks)
  | _ => True

namespace Turns

theorem visitsNamed (h : r.Turns c r') (hr : r.VisitsNamed) : r'.VisitsNamed := by
  -- a function that was there is there afterwards
  have hkept {r₁ : Registry} {t : TableName} {name : String}
      (hreserve : r.reserve t = .ok (name, r₁)) : r₁.VisitsNamed := by
    intro u hu
    rw [visited_reserve hreserve] at hu
    obtain ⟨e, he⟩ := hr u hu
    rcases record?_reserve hreserve u with heq | ⟨hnone, -⟩
    · exact ⟨e, heq.trans he⟩
    · rw [hnone] at he
      cases he
  cases h with
  | nothing => exact hr
  | names reserved => exact hkept reserved
  | @begins t _ r₁ reserved fresh =>
    intro u hu
    rw [TableName.isIn_concat, Bool.or_eq_true] at hu
    rcases hu with hu | hsame
    · exact hkept reserved u hu
    · obtain ⟨e, he, -⟩ := Option.map_eq_some_iff.1 fresh
      exact ⟨e, (record?_congr hsame).trans he⟩
  | writes t keyColumn blocks =>
    intro u hu
    obtain ⟨e, he⟩ := hr u hu
    rw [record?_complete, he]
    exact ⟨_, rfl⟩

/-- **Functions advance** with every call that comes in order. -/
theorem advances (h : r.Turns c r') (hr : r.VisitsNamed) (hc : r.Admits c) (u : TableName) :
    Advances (r.state? u) (r'.state? u) := by
  cases h with
  | nothing => exact .stays _
  | names reserved =>
    rcases state?_reserve hr reserved u with heq | ⟨hnone, hsome⟩
    · rw [heq]
      exact .stays _
    · rw [hnone, hsome]
      exact .named
  | @begins t _ r₁ reserved fresh =>
    rw [state?_visit fresh]
    by_cases hsame : t.same u = true
    · rw [if_pos hsame]
      have hstate : r₁.state? u = some .reserved := (state?_congr hsame).symm.trans fresh
      rcases state?_reserve hr reserved u with heq | ⟨hnone, -⟩
      · rw [← heq, hstate]
        exact .begun
      · rw [hnone]
        exact .namedAndBegun
    · rw [if_neg hsame]
      rcases state?_reserve hr reserved u with heq | ⟨hnone, hsome⟩
      · rw [heq]
        exact .stays _
      · rw [hnone, hsome]
        exact .named
  | writes t keyColumn blocks =>
    rw [state?_complete]
    by_cases hsame : t.same u = true
    · rw [if_pos hsame]
      have hstate : r.state? t = r.state? u := state?_congr hsame
      rcases hc with hnone | hunder | ⟨hdone, -⟩
      · rw [← hstate, hnone]
        exact .stays none
      · rw [← hstate, hunder]
        exact .written
      · rw [← hstate, hdone]
        exact .stays (some .done)
    · rw [if_neg hsame]
      exact .stays _

/-- **What is done stays as it is** with every call that comes in order. -/
theorem record?_of_done (h : r.Turns c r') (hc : r.Admits c) (hdone : r.state? u = some .done) :
    r'.record? u = r.record? u := by
  obtain ⟨e, he, hd⟩ := state?_eq_done.1 hdone
  have hkept {r₁ : Registry} {t : TableName} {name : String}
      (hreserve : r.reserve t = .ok (name, r₁)) : r₁.record? u = r.record? u := by
    rcases record?_reserve hreserve u with heq | ⟨hnone, -⟩
    · exact heq
    · rw [he] at hnone
      cases hnone
  cases h with
  | nothing => rfl
  | names reserved => exact hkept reserved
  | begins reserved fresh =>
    -- the visit is kept beside the records
    have hrecord := hkept reserved
    exact hrecord
  | writes t keyColumn blocks =>
    rw [record?_complete, he, Option.map_some]
    by_cases hsame : t.same u = true
    · have hstate : r.state? t = r.state? u := state?_congr hsame
      rcases hc with hnone | hunder | ⟨-, f, hf, rfl, rfl⟩
      · rw [hstate, hdone] at hnone
        cases hnone
      · rw [hstate, hdone] at hunder
        cases hunder
      · -- it is written as it stands
        have hfun : f = e.function := by
          rw [get?, record?_congr hsame, he, Option.map_some] at hf
          exact (Option.some.inj hf).symm
        rw [if_pos hsame, hfun, ← hd]
    · rw [if_neg hsame]

theorem isIn_visited (h : r.Turns c r') (hin : u.isIn r.visited = true) :
    u.isIn r'.visited = true := by
  cases h with
  | nothing => exact hin
  | names reserved => rw [visited_reserve reserved, hin]
  | begins reserved fresh =>
    rw [TableName.isIn_concat, visited_reserve reserved, hin, Bool.true_or]
  | writes t keyColumn blocks => exact hin

end Turns

/-! ## The functions listed -/

/-- **The function of a table is listed.** -/
def Lists (r : Registry) (t : TableName) : Prop := ∃ f, r.get? t = some f ∧ f ∈ r.functions

/-- A function is listed if it is written and its visit began: both, for the
list goes through the visits. -/
theorem lists_iff : r.Lists t ↔ r.state? t = some .done ∧ t.isIn r.visited = true := by
  constructor
  · rintro ⟨f, hf, hmem⟩
    obtain ⟨u, hu, hlisted⟩ := List.mem_filterMap.1 hmem
    obtain ⟨e, he, rfl⟩ := Option.map_eq_some_iff.1 hf
    cases heu : r.record? u with
    | none =>
      rw [heu] at hlisted
      cases hlisted
    | some e' =>
      rw [heu] at hlisted
      obtain ⟨hdone, hfun⟩ := Option.ite_none_right_eq_some.1 hlisted
      have hsame : t.same u = true := by
        rw [← TableName.same_congr_left (mem_of_record? he).2, ← Option.some.inj hfun]
        exact (mem_of_record? heu).2
      rw [record?_congr hsame, heu] at he
      obtain rfl := Option.some.inj he
      exact ⟨state?_eq_done.2 ⟨e', (record?_congr hsame).trans heu, hdone⟩,
        TableName.isIn_iff.2 ⟨u, hu, hsame⟩⟩
  · rintro ⟨hdone, hin⟩
    obtain ⟨e, he, hd⟩ := state?_eq_done.1 hdone
    obtain ⟨u, hu, hsame⟩ := TableName.isIn_iff.1 hin
    refine ⟨e.function, by rw [get?, he, Option.map_some], List.mem_filterMap.2 ⟨u, hu, ?_⟩⟩
    rw [← record?_congr hsame, he]
    exact if_pos hd

/-- Every function that is done was visited. -/
def DoneVisited (r : Registry) : Prop :=
  ∀ t, r.state? t = some .done → t.isIn r.visited = true

theorem isIn_of_inProgress (h : r.state? t = some .inProgress) : t.isIn r.visited = true := by
  obtain ⟨e, -, he⟩ := Option.map_eq_some_iff.1 h
  by_cases hin : t.isIn r.visited = true
  · exact hin
  · rw [if_neg hin] at he
    split at he <;> cases he

theorem Turns.doneVisited (h : r.Turns c r') (hr : r.VisitsNamed) (hc : r.Admits c)
    (hdone : r.DoneVisited) : r'.DoneVisited := by
  intro u hu
  have hadvances : Advances (r.state? u) (r'.state? u) := h.advances hr hc u
  rw [hu] at hadvances
  generalize hbefore : r.state? u = before at hadvances
  cases hadvances with
  | stays => exact h.isIn_visited (hdone u hbefore)
  | written => exact h.isIn_visited (isIn_of_inProgress hbefore)

/-! ## Calls one after the other -/

theorem after_append (r : Registry) (calls more : List Request) :
    r.after (calls ++ more) = (r.after calls).after more := by
  induction calls generalizing r with
  | nil => rfl
  | cons c rest ih => exact ih _

theorem after_concat (r : Registry) (calls : List Request) (c : Request) :
    r.after (calls ++ [c]) = ((r.after calls).step c).2 := after_append r calls [c]

theorem VisitsNamed.after (hr : r.VisitsNamed) (calls : List Request) :
    (r.after calls).VisitsNamed := by
  induction calls generalizing r with
  | nil => exact hr
  | cons c rest ih => exact ih ((r.turns_step c).visitsNamed hr)

/-- **Calls in order**: each is admitted by the registry that it comes to. -/
def InOrder (r : Registry) (calls : List Request) : Prop :=
  ∀ before c, before ++ [c] <+: calls → (r.after before).Admits c

namespace InOrder

variable {calls more : List Request}

theorem take (h : r.InOrder (calls ++ more)) : r.InOrder calls := by
  intro before c hbefore
  exact h before c (hbefore.trans (List.prefix_append calls more))

theorem drop (h : r.InOrder (calls ++ more)) : (r.after calls).InOrder more := by
  intro before c hbefore
  have hlong : (calls ++ before) ++ [c] <+: calls ++ more := by
    rw [List.append_assoc]
    exact (List.prefix_append_right_inj calls).2 hbefore
  rw [← after_append]
  exact h (calls ++ before) c hlong

theorem head (h : r.InOrder (c :: calls)) : r.Admits c :=
  h [] c (List.cons_prefix_cons.2 ⟨rfl, List.nil_prefix⟩)

theorem tail (h : r.InOrder (c :: calls)) : (r.step c).2.InOrder calls := by
  have hall : r.InOrder ([c] ++ calls) := h
  exact hall.drop

/-- What is done stays as it is. -/
theorem record?_of_done (h : r.InOrder calls) (hdone : r.state? u = some .done) :
    (r.after calls).record? u = r.record? u := by
  induction calls generalizing r with
  | nil => rfl
  | cons c rest ih =>
    have hstep : (r.step c).2.record? u = r.record? u :=
      (r.turns_step c).record?_of_done h.head hdone
    have hstays : (r.step c).2.state? u = some .done := by
      rw [state?_eq_done] at hdone ⊢
      rwa [hstep]
    exact (ih h.tail hstays).trans hstep

theorem doneVisited (h : r.InOrder calls) (hr : r.VisitsNamed) (hdone : r.DoneVisited) :
    (r.after calls).DoneVisited := by
  induction calls generalizing r with
  | nil => exact hdone
  | cons c rest ih =>
    have hturns : r.Turns c (r.step c).2 := r.turns_step c
    exact ih h.tail (hturns.visitsNamed hr) (hturns.doneVisited hr h.head hdone)

end InOrder

/-- **Functions are written once** all through these calls: each goes its way
step by step, is not touched once it is done, and is listed from then on and
not before. -/
structure WrittenOnce (r : Registry) (calls : List Request) : Prop where
  advances : ∀ before c, before ++ [c] <+: calls → ∀ t,
    Advances ((r.after before).state? t) ((r.after (before ++ [c])).state? t)
  kept : ∀ before more, before ++ more <+: calls → ∀ t f,
    (r.after before).state? t = some .done → (r.after before).get? t = some f →
    (r.after (before ++ more)).state? t = some .done ∧ (r.after (before ++ more)).get? t = some f
  listed : ∀ before, before <+: calls → ∀ t,
    (r.after before).state? t = some .done ↔ (r.after before).Lists t

/-- **Functions are written once exactly if the calls come in order.** A
registry does not see to it: whoever writes a function has to begin the visit
of its table first, and not to write it again. -/
theorem writtenOnce_iff (namer : Namer) (calls : List Request) :
    (new namer).WrittenOnce calls ↔ (new namer).InOrder calls := by
  have hnamed : (new namer).VisitsNamed := .new namer
  constructor
  · intro h before c hbefore
    cases c with
    | reserve | register | beginVisit => exact trivial
    | complete t keyColumn blocks =>
      generalize hr : (new namer).after before = r
      have hafter : (new namer).after (before ++ [.complete t keyColumn blocks]) =
          r.complete t keyColumn blocks := by
        rw [after_concat, hr]
        rfl
      have hadvances := h.advances before _ hbefore t
      rw [hafter, hr, state?_complete, if_pos (TableName.same_refl t)] at hadvances
      cases hstate : r.state? t with
      | none => exact Or.inl hstate
      | some state =>
        rw [hstate] at hadvances
        cases state with
        | reserved => cases hadvances
        | inProgress => exact Or.inr (Or.inl hstate)
        | done =>
          obtain ⟨f, hf⟩ := exists_get?_of_done hstate
          have hkept := (h.kept before [_] hbefore t f (hr ▸ hstate) (hr ▸ hf)).2
          rw [hafter, get?_complete, hf, Option.map_some, if_pos (TableName.same_refl t)] at hkept
          have hsame : { f with keyColumn, blocks } = f := Option.some.inj hkept
          exact Or.inr (Or.inr ⟨hstate, f, hf, by rw [← hsame], by rw [← hsame]⟩)
  · intro h
    refine ⟨fun before c hbefore t => ?_, fun before more hbefore t f hdone hf => ?_,
      fun before hbefore t => ?_⟩
    · rw [after_concat]
      exact (turns_step _ c).advances (hnamed.after before) (h before c hbefore) t
    · obtain ⟨rest, rfl⟩ := hbefore
      have hrecord := h.take.drop.record?_of_done hdone
      rw [← after_append] at hrecord
      refine ⟨?_, by rw [get?, hrecord]; exact hf⟩
      rw [state?_eq_done] at hdone ⊢
      rwa [hrecord]
    · obtain ⟨rest, rfl⟩ := hbefore
      have hvisited : ((new namer).after before).DoneVisited := by
        refine h.take.doneVisited hnamed fun t ht => ?_
        cases ht
      rw [lists_iff]
      exact ⟨fun hdone => ⟨hdone, hvisited t hdone⟩, And.left⟩

/-- **Not every function is written once.** One that is written before its
visit begins is done without being listed, and one that is written again is
another. -/
theorem not_writtenOnce :
    let r := new (.new "del_" 63)
    let house : TableName := ⟨"city", "house"⟩
    ¬ r.WrittenOnce [.reserve house, .complete house "id" []] ∧
      ¬ r.WrittenOnce
        [.beginVisit house, .complete house "id" [], .complete house "code" [.localDelete []]] := by
  intro r house
  constructor
  · intro h
    have hlisted := (h.listed _ (List.prefix_refl _) house).1 (by decide +kernel)
    obtain ⟨f, -, hf⟩ := hlisted
    have hnone : (r.after [.reserve house, .complete house "id" []]).functions = [] := by
      decide +kernel
    rw [hnone] at hf
    cases hf
  · intro h
    have hkept := h.kept [.beginVisit house, .complete house "id" []]
      [.complete house "code" [.localDelete []]] (List.prefix_refl _) house
      ⟨house, "del_house", "id", []⟩ (by decide +kernel) (by decide +kernel)
    exact absurd hkept.2 (by decide +kernel)

end Registry

end DeleteCascade
