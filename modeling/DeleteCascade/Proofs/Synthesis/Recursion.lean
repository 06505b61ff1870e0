import DeleteCascade.Proofs.Synthesis.Program
/-!
# Programs — the loop and the recursion

Functions are written in a loop that works off a stack of tables
(`Setting.WorksOff`): a table that is called is put on the stack unless its
function is done, and dropped when it comes up again later. One would rather
say what is done by recursion: visit a table, then what its function calls, in
order (`Setting.explore`). The two come to the same. Visiting one list after
another is visiting both (`visit_append`), so what is pending on the stack can
be taken table by table, and what is left off the stack would be dropped
anyhow, since what is done stays done (`visit_skims`). The recursion has only
one solution, for each visit that begins leaves fewer tables to begin
(`eq_visitOne_of_explore`), and for the same reason the loop comes to an end
(`exists_worksOff`).
-/

namespace DeleteCascade

/-! ## What is done -/

namespace Registry

variable {r r' : Registry} {t u : TableName}

/-- **A table that is done is not visited again**, and nothing changes. -/
theorem beginVisit_of_done (h : r.state? t = some .done) : r.beginVisit t = .ok (false, r) := by
  obtain ⟨e, he, -⟩ := state?_eq_done.1 h
  have hreserve : r.reserve t = .ok (e.function.name, r) := by
    unfold reserve
    rw [he]
  unfold beginVisit
  simp [hreserve, h]

theorem done_of_reserve {name : String} (hr : r.reserve t = .ok (name, r'))
    (h : r.state? u = some .done) : r'.state? u = some .done := by
  obtain ⟨e, he, hd⟩ := state?_eq_done.1 h
  rcases reserve_eq_ok hr with ⟨e', -, -, rfl⟩ | ⟨-, namer, -, rfl⟩
  · exact h
  · refine state?_eq_done.2 ⟨e, ?_, hd⟩
    unfold record? at he ⊢
    rw [List.find?_append, he, Option.some_or]

theorem done_of_reserveAll {ts : List TableName} (hr : r.reserveAll ts = .ok r')
    (h : r.state? u = some .done) : r'.state? u = some .done := by
  induction ts generalizing r with
  | nil =>
    cases hr
    exact h
  | cons t ts ih =>
    unfold reserveAll at hr
    split at hr
    · cases hr
    · rename_i hfirst
      exact ih hr (done_of_reserve hfirst h)

/-- Beginning a visit leaves done what is done. -/
theorem done_of_beginVisit {begins : Bool} (hr : r.beginVisit t = .ok (begins, r'))
    (h : r.state? u = some .done) : r'.state? u = some .done := by
  obtain ⟨name, r₁, hreserve, ⟨-, rfl⟩ | ⟨-, rfl⟩⟩ := beginVisit_eq_ok hr
  · obtain ⟨e, he, hd⟩ := state?_eq_done.1 (done_of_reserve hreserve h)
    exact state?_eq_done.2 ⟨e, he, hd⟩
  · exact done_of_reserve hreserve h

theorem done_of_complete {k : String} {blocks : List (Block Callee)}
    (h : r.state? u = some .done) : (r.complete t k blocks).state? u = some .done := by
  obtain ⟨e, he, hd⟩ := state?_eq_done.1 h
  rw [state?_eq_done, complete, record?_modify (keepsIdentity_complete k blocks), he]
  refine ⟨_, rfl, ?_⟩
  dsimp only
  split
  · rfl
  · exact hd

/-- What is put on the stack of the tables that a function calls: those that
are not done. -/
def toVisit (r : Registry) (called : List TableName) : List TableName :=
  called.filter fun u => r.state? u ≠ some .done

end Registry

/-- **A stack skims a list of pending tables**: some that are done are left
out. -/
inductive Skims (r : Registry) : (pending stack : List TableName) → Prop
  | nil : Skims r [] []
  | keep {t : TableName} {pending stack : List TableName} (rest : Skims r pending stack) :
      Skims r (t :: pending) (t :: stack)
  | drop {t : TableName} {pending stack : List TableName} (done : r.state? t = some .done)
      (rest : Skims r pending stack) : Skims r (t :: pending) stack

namespace Skims

variable {r r' : Registry} {pending pending' stack stack' : List TableName}

theorem refl (r : Registry) : ∀ pending, Skims r pending pending
  | [] => .nil
  | _ :: pending => .keep (refl r pending)

theorem mono (h : Skims r pending stack)
    (hdone : ∀ t, r.state? t = some .done → r'.state? t = some .done) : Skims r' pending stack := by
  induction h with
  | nil => exact .nil
  | keep rest ih => exact .keep ih
  | drop done rest ih => exact .drop (hdone _ done) ih

theorem append (h : Skims r pending stack) (h' : Skims r pending' stack') :
    Skims r (pending ++ pending') (stack ++ stack') := by
  induction h with
  | nil => exact h'
  | keep rest ih => exact .keep ih
  | drop done rest ih => exact .drop done ih

theorem toVisit (r : Registry) (called : List TableName) : Skims r called (r.toVisit called) := by
  unfold Registry.toVisit
  induction called with
  | nil => exact .nil
  | cons t called ih =>
    rw [List.filter_cons]
    split
    · exact .keep ih
    · rename_i hdone
      exact .drop (by simpa using hdone) ih

end Skims

namespace Setting

variable {s : Setting} {t : TableName} {r r' r'' : Registry} {notes notes' : List String}
variable {called pending stack : List TableName}

theorem done_of_write (hw : s.write r notes t = .ok (r', notes', called)) {u : TableName}
    (h : r.state? u = some .done) : r'.state? u = some .done := by
  unfold write at hw
  dsimp only at hw
  split at hw
  · cases hw
  · rename_i hreserve
    split at hw
    · cases hw
    · cases hw
      exact Registry.done_of_complete (Registry.done_of_reserveAll hreserve h)


/-- **What a stack leaves out makes no difference** to a visit. -/
theorem visit_skims (h : Skims r pending stack) :
    s.visit pending r notes = s.visit stack r notes := by
  induction pending, r, notes using Setting.visit.induct (s := s) generalizing stack with
  | case1 r notes =>
    cases h
    rfl
  | case2 r notes t rest e hbegun =>
    cases h with
    | keep => rw [visit_cons, visit_cons, hbegun]
    | drop done =>
      rw [Registry.beginVisit_of_done done] at hbegun
      cases hbegun
  | case3 r notes t rest r₁ hbegun ih =>
    cases h with
    | keep hrest =>
      rw [visit_cons, visit_cons, hbegun]
      exact ih (hrest.mono fun u => Registry.done_of_beginVisit hbegun)
    | drop done hrest =>
      rw [visit_cons, hbegun]
      rw [Registry.beginVisit_of_done done] at hbegun
      cases hbegun
      exact ih hrest
  | case4 r notes t rest r₁ hbegun e hwritten =>
    cases h with
    | keep =>
      rw [visit_cons, visit_cons, hbegun]
      dsimp only
      rw [hwritten]
    | drop done =>
      rw [Registry.beginVisit_of_done done] at hbegun
      cases hbegun
  | case5 r notes t rest r₁ hbegun r₂ notes₂ called hwritten ih =>
    cases h with
    | keep hrest =>
      rw [visit_cons, visit_cons, hbegun]
      dsimp only
      rw [hwritten]
      exact ih ((Skims.refl r₂ called).append (hrest.mono fun u hu =>
        done_of_write hwritten (Registry.done_of_beginVisit hbegun hu)))
    | drop done =>
      rw [Registry.beginVisit_of_done done] at hbegun
      cases hbegun

/-! ## The recursion -/

/-- Visiting one list of tables after another is visiting both. -/
theorem visit_append (pending more : List TableName) (r : Registry) (notes : List String) :
    s.visit (pending ++ more) r notes =
      (s.visit pending r notes).bind fun st => s.visit more st.registry st.notes := by
  induction pending, r, notes using Setting.visit.induct (s := s) with
  | case1 r notes =>
    rw [List.nil_append, visit, Except.bind]
  | case2 r notes t rest e hbegun =>
    rw [List.cons_append, visit_cons, visit_cons, hbegun]
    rfl
  | case3 r notes t rest r₁ hbegun ih =>
    rw [List.cons_append, visit_cons, visit_cons, hbegun]
    exact ih
  | case4 r notes t rest r₁ hbegun e hwritten =>
    rw [List.cons_append, visit_cons, visit_cons, hbegun]
    dsimp only
    rw [hwritten]
    rfl
  | case5 r notes t rest r₁ hbegun r₂ notes₂ called hwritten ih =>
    rw [List.cons_append, visit_cons, visit_cons, hbegun]
    dsimp only
    rw [hwritten]
    dsimp only
    rw [← ih, List.append_assoc]

/-- The visit of one table, with all that is visited from there. -/
def visitOne (s : Setting) (t : TableName) (st : Synthesis) : Except SynthesisError Synthesis :=
  s.visit [t] st.registry st.notes

/-- Pending tables are visited one by one. -/
theorem visit_eq_foldlM (pending : List TableName) (st : Synthesis) :
    s.visit pending st.registry st.notes = pending.foldlM (fun st u => s.visitOne u st) st := by
  induction pending generalizing st with
  | nil =>
    rw [visit]
    rfl
  | cons t pending ih =>
    rw [List.foldlM_cons, ← List.singleton_append, visit_append]
    exact congrArg (Except.bind (s.visitOne t st)) (funext ih)

/-- **What the recursion does at a table**, given how it goes on with the tables
called: nothing if the visit of the table began before; else it begins the
visit, writes the function, and visits what the function calls, in order. -/
def explore (s : Setting) (visit : TableName → Synthesis → Except SynthesisError Synthesis)
    (t : TableName) (st : Synthesis) : Except SynthesisError Synthesis :=
  match st.registry.beginVisit t with
  | .error e => .error (.names e)
  | .ok (false, r) => .ok ⟨r, st.notes⟩
  | .ok (true, r) =>
    match s.write r st.notes t with
    | .error e => .error e
    | .ok (r, notes, called) => called.foldlM (fun st u => visit u st) ⟨r, notes⟩

/-- **Visiting is recursive.** -/
theorem visitOne_eq_explore (t : TableName) (st : Synthesis) :
    s.visitOne t st = s.explore s.visitOne t st := by
  unfold visitOne explore
  rw [visit_cons]
  rcases st.registry.beginVisit t with e | ⟨_ | _, r⟩
  · rfl
  · dsimp only
    rw [visit]
  · dsimp only
    rcases s.write r st.notes t with e | ⟨r, notes, called⟩
    · rfl
    · dsimp only
      rw [List.append_nil]
      exact visit_eq_foldlM called ⟨r, notes⟩

/-- **Where a function is done, the recursion does nothing.** -/
theorem visitOne_of_done {st : Synthesis} (h : st.registry.state? t = some .done) :
    s.visitOne t st = .ok st := by
  rw [visitOne_eq_explore, explore, Registry.beginVisit_of_done h]

/-- A visit takes back no table that was visited. -/
theorem countOutside_visit_le {result : Synthesis} (h : s.visit pending r notes = .ok result) :
    s.schema.countOutside result.registry.visited ≤ s.schema.countOutside r.visited := by
  refine visit_keeps (P := fun r' _ =>
    s.schema.countOutside r'.visited ≤ s.schema.countOutside r.visited)
    (fun {r₁ r₂ _ t begins} hle hbegun => ?_) (fun {r₁ r₂ _ _ _ _} hle hwritten => ?_)
    pending (Nat.le_refl _) h
  · refine Nat.le_trans (Schema.countOutside_le fun u hu => ?_) hle
    cases begins with
    | false => rwa [Registry.visited_beginVisit_false hbegun]
    | true =>
      rw [(Registry.visited_beginVisit_true hbegun).1, TableName.isIn_concat, hu, Bool.true_or]
  · rw [(visited_write hwritten).2]
    exact hle

section Unique

variable {V : TableName → Synthesis → Except SynthesisError Synthesis}

/-- Ways to visit that agree while few tables are left agree on a list. -/
theorem foldlM_eq_of_below {n : Nat}
    (hbelow : ∀ t st, s.schema.countOutside st.registry.visited < n → V t st = s.visitOne t st)
    (ts : List TableName) {st : Synthesis} (hst : s.schema.countOutside st.registry.visited < n) :
    ts.foldlM (fun st u => V u st) st = ts.foldlM (fun st u => s.visitOne u st) st := by
  induction ts generalizing st with
  | nil => rfl
  | cons t ts ih =>
    rw [List.foldlM_cons, List.foldlM_cons, hbelow t st hst]
    cases hfirst : s.visitOne t st with
    | error e => rfl
    | ok st' => exact ih (Nat.lt_of_le_of_lt (countOutside_visit_le hfirst) hst)

/-- **The recursion has no other solution.** -/
theorem eq_visitOne_of_explore (hV : ∀ t st, V t st = s.explore V t st) : V = s.visitOne := by
  suffices h : ∀ n t st, s.schema.countOutside st.registry.visited = n →
      V t st = s.visitOne t st from funext fun t => funext fun st => h _ t st rfl
  intro n
  induction n using Nat.strongRecOn with
  | ind n ih =>
    rintro t st rfl
    rw [hV, visitOne_eq_explore]
    unfold explore
    cases hbegun : st.registry.beginVisit t with
    | error e => rfl
    | ok begun =>
      obtain ⟨_ | _, r⟩ := begun
      · rfl
      · dsimp only
        cases hwritten : s.write r st.notes t with
        | error e => rfl
        | ok written =>
          obtain ⟨r', notes, called⟩ := written
          obtain ⟨hknown, hvisited⟩ := visited_write hwritten
          refine foldlM_eq_of_below (fun u st' hlt => ih _ hlt u st' rfl) called ?_
          rw [hvisited]
          exact Registry.countOutside_beginVisit_lt hbegun hknown

end Unique

/-! ## The loop -/

/-- **The loop works off a stack** and comes to an outcome. A table whose visit
began before is dropped; for any other one the body is built, and what the
function calls is put on top of the stack unless it is done. The tables whose
bodies are built are listed, in order; the last one may be one that fails. -/
inductive WorksOff (s : Setting) : (stack : List TableName) → Registry → List String →
    (built : List TableName) → Except SynthesisError Synthesis → Prop
  | empty {r : Registry} {notes : List String} : WorksOff s [] r notes [] (.ok ⟨r, notes⟩)
  | unnamed {t : TableName} {stack : List TableName} {r : Registry} {notes : List String}
      {e : NameOverflow} (begun : r.beginVisit t = .error e) :
      WorksOff s (t :: stack) r notes [] (.error (.names e))
  | dropped {t : TableName} {stack built : List TableName} {r r' : Registry} {notes : List String}
      {outcome : Except SynthesisError Synthesis} (begun : r.beginVisit t = .ok (false, r'))
      (rest : WorksOff s stack r' notes built outcome) :
      WorksOff s (t :: stack) r notes built outcome
  | failed {t : TableName} {stack : List TableName} {r r' : Registry} {notes : List String}
      {e : SynthesisError} (begun : r.beginVisit t = .ok (true, r'))
      (written : s.write r' notes t = .error e) : WorksOff s (t :: stack) r notes [t] (.error e)
  | built {t : TableName} {stack built called : List TableName} {r r' r'' : Registry}
      {notes notes' : List String} {outcome : Except SynthesisError Synthesis}
      (begun : r.beginVisit t = .ok (true, r'))
      (written : s.write r' notes t = .ok (r'', notes', called))
      (rest : WorksOff s (r''.toVisit called ++ stack) r'' notes' built outcome) :
      WorksOff s (t :: stack) r notes (t :: built) outcome

namespace WorksOff

variable {built built' : List TableName} {outcome outcome' : Except SynthesisError Synthesis}

/-- **The loop ends**, on any stack. -/
theorem exists_worksOff (s : Setting) (stack : List TableName) (r : Registry)
    (notes : List String) : ∃ built outcome, s.WorksOff stack r notes built outcome := by
  match stack with
  | [] => exact ⟨_, _, .empty⟩
  | t :: stack =>
    match hbegun : r.beginVisit t with
    | .error e => exact ⟨_, _, .unnamed hbegun⟩
    | .ok (false, r') =>
      obtain ⟨built, outcome, hrest⟩ := exists_worksOff s stack r' notes
      exact ⟨_, _, .dropped hbegun hrest⟩
    | .ok (true, r') =>
      match hwritten : s.write r' notes t with
      | .error e => exact ⟨_, _, .failed hbegun hwritten⟩
      | .ok (r'', notes', called) =>
        obtain ⟨built, outcome, hrest⟩ := exists_worksOff s (r''.toVisit called ++ stack) r'' notes'
        exact ⟨_, _, .built hbegun hwritten hrest⟩
termination_by (s.schema.countOutside r.visited, stack.length)
decreasing_by
  · rw [Registry.visited_beginVisit_false hbegun]
    exact Prod.Lex.right _ (by simp)
  · obtain ⟨hknown, hvisited⟩ := visited_write hwritten
    rw [hvisited]
    exact Prod.Lex.left _ _ (Registry.countOutside_beginVisit_lt hbegun hknown)

/-- **The loop comes to what the visit of its stack comes to.** -/
theorem outcome_eq (h : s.WorksOff stack r notes built outcome) :
    outcome = s.visit stack r notes := by
  induction h with
  | empty => rw [visit]
  | unnamed begun => rw [visit_cons, begun]
  | dropped begun rest ih => rw [visit_cons, begun, ih]
  | failed begun written =>
    rw [visit_cons, begun]
    dsimp only
    rw [written]
  | @built t stack built called r r' r'' notes notes' outcome begun written rest ih =>
    rw [visit_cons, begun]
    dsimp only
    rw [written, ih]
    exact (visit_skims ((Skims.toVisit r'' called).append (.refl r'' stack))).symm

/-- What is built is determined by where the loop starts. -/
theorem built_eq (h : s.WorksOff stack r notes built outcome)
    (h' : s.WorksOff stack r notes built' outcome') : built = built' := by
  induction h generalizing built' outcome' with
  | empty =>
    cases h'
    rfl
  | unnamed begun => cases h' <;> simp_all
  | dropped begun rest ih =>
    cases h' with
    | dropped begun' rest' =>
      rw [begun] at begun'
      cases begun'
      exact ih rest'
    | _ => simp_all
  | failed begun written => cases h' <;> simp_all
  | built begun written rest ih =>
    cases h' with
    | built begun' written' rest' =>
      rw [begun] at begun'
      cases begun'
      rw [written] at written'
      cases written'
      rw [ih rest']
    | _ => simp_all

/-- Visits that begin are those of the tables whose bodies are built. -/
theorem visited_built (begun : r.beginVisit t = .ok (true, r'))
    (written : s.write r' notes t = .ok (r'', notes', called)) :
    r''.visited = r.visited ++ [t] := by
  rw [(visited_write written).2, (Registry.visited_beginVisit_true begun).1]

/-- **At most one body is built for each table**, and none for a table that was
visited before. -/
theorem built_once (h : s.WorksOff stack r notes built outcome) :
    (∀ u ∈ built, u.isIn r.visited = false) ∧ built.Pairwise fun t u => t.same u = false := by
  induction h with
  | empty => simp
  | unnamed begun => simp
  | dropped begun rest ih => rwa [Registry.visited_beginVisit_false begun] at ih
  | failed begun written => simpa using (Registry.visited_beginVisit_true begun).2
  | built begun written rest ih =>
    rw [visited_built begun written] at ih
    simp only [TableName.isIn_concat, Bool.or_eq_false_iff] at ih
    obtain ⟨hnew, honce⟩ := ih
    refine ⟨fun u hu => ?_, List.pairwise_cons.2 ⟨fun u hu => ?_, honce⟩⟩
    · rcases List.mem_cons.1 hu with rfl | hu
      · exact (Registry.visited_beginVisit_true begun).2
      · exact (hnew u hu).1
    · rw [TableName.same_comm]
      exact (hnew u hu).2

/-- The tables whose bodies are built are visited in this order. -/
theorem visited_eq {result : Synthesis} (h : s.WorksOff stack r notes built (.ok result)) :
    result.registry.visited = r.visited ++ built := by
  generalize houtcome : Except.ok result = outcome at h
  induction h with
  | empty =>
    cases houtcome
    rw [List.append_nil]
  | unnamed begun => cases houtcome
  | dropped begun rest ih => rw [ih houtcome, Registry.visited_beginVisit_false begun]
  | failed begun written => cases houtcome
  | built begun written rest ih =>
    rw [ih houtcome, visited_built begun written, List.append_assoc, List.singleton_append]

end WorksOff

/-- **The loop is the recursion.** The recursion `explore` has one solution,
`V`, which does nothing where a function is done. The loop started on a root
ends, in one way, having built at most one body for each table; it comes to what
`V` comes to at the root, be that an error or a registry with its names, visits
and bodies, and remarks. Synthesis then only cuts the loops of owners. -/
theorem loop_eq_recursion (s : Setting) :
    ∃ V : TableName → Synthesis → Except SynthesisError Synthesis,
      (∀ W, (∀ t st, W t st = s.explore W t st) ↔ W = V) ∧
      (∀ t st, st.registry.state? t = some .done → V t st = .ok st) ∧
      (∀ namer root, ∃ built : List TableName,
        s.WorksOff [root] (.new namer) [] built (V root ⟨.new namer, []⟩) ∧
        (∀ built' outcome, s.WorksOff [root] (.new namer) [] built' outcome →
          built' = built ∧ outcome = V root ⟨.new namer, []⟩) ∧
        built.Pairwise (fun t u => t.same u = false) ∧
        ∀ visited, V root ⟨.new namer, []⟩ = .ok visited → visited.registry.visited = built) ∧
      ∀ namer root, s.synthesize namer root = (V root ⟨.new namer, []⟩).bind fun visited =>
        (s.cutCycles visited.registry visited.notes).map fun (r, notes) => ⟨r, notes⟩ := by
  refine ⟨s.visitOne, fun W => ⟨eq_visitOne_of_explore, ?_⟩, fun t st => visitOne_of_done,
    fun namer root => ?_, fun namer root => ?_⟩
  · rintro rfl
    exact visitOne_eq_explore
  · obtain ⟨built, outcome, h⟩ := WorksOff.exists_worksOff s [root] (.new namer) []
    obtain rfl := h.outcome_eq
    refine ⟨built, h, fun built' outcome' h' => ⟨h'.built_eq h, h'.outcome_eq⟩, h.built_once.2,
      fun visited hvisited => ?_⟩
    rw [show s.visit [root] (.new namer) [] = .ok visited from hvisited] at h
    exact h.visited_eq
  · unfold synthesize visitOne
    cases s.visit [root] (.new namer) [] <;> rfl

end Setting

end DeleteCascade
