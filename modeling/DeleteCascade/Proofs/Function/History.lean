import DeleteCascade.Proofs.Function.InPlace
/-!
# Registry — what stays the same

Calls are made one after the other, in any order and with any tables, and
some of them fail. `Does` says once what a call can do. A registry stays in
step with the answers it gave (`InStep`): its functions are apart by tables
and by names, its visits are those whose calls were answered with yes, and
the names it answered are still those of their tables. `history_stable` reads
off what a client can rely on.
-/

namespace DeleteCascade

namespace Registry

variable {r r' : Registry} {c : Request} {a : Answer} {t : TableName} {name : String}

/-! ## One call -/

/-- The table that was named by a call, with the name. -/
def named? : Request × Except NameOverflow Answer → Option (TableName × String)
  | (.reserve t, .ok (.name name)) => some (t, name)
  | (.register t, .ok (.function f)) => some (t, f.name)
  | _ => none

/-- The table whose visit began with a call. -/
def begun? : Request × Except NameOverflow Answer → Option TableName
  | (.beginVisit t, .ok (.begun true)) => some t
  | _ => none

/-- **What a call can do** that does not fail. -/
inductive Does (r : Registry) : Request → Answer → Registry → Prop
  | reserve {t : TableName} {name : String} {r' : Registry}
      (reserved : r.reserve t = .ok (name, r')) : Does r (.reserve t) (.name name) r'
  | register {t : TableName} {f : DeleteFunction} {r' : Registry}
      (reserved : r.reserve t = .ok (f.name, r')) (found : r'.get? t = some f) :
      Does r (.register t) (.function f) r'
  | begins {t : TableName} {name : String} {r' : Registry}
      (reserved : r.reserve t = .ok (name, r')) (first : t.isIn r.visited = false) :
      Does r (.beginVisit t) (.begun true) { r' with visited := r.visited ++ [t] }
  | refuses {t : TableName} {name : String} {r' : Registry}
      (reserved : r.reserve t = .ok (name, r')) : Does r (.beginVisit t) (.begun false) r'
  | completes (t : TableName) (keyColumn : String) (blocks : List (Block Callee)) :
      Does r (.complete t keyColumn blocks) .completed (r.complete t keyColumn blocks)

theorem does_of_register {f : DeleteFunction} (h : r.register t = .ok (f, r')) :
    r.Does (.register t) (.function f) r' := by
  unfold Registry.register at h
  split at h
  · cases h
  · rename_i name r₁ hreserve
    cases h
    -- a table that was just named has a function, so the default does not come up
    have hname := nameOf?_reserve hreserve
    obtain ⟨f, hf, rfl⟩ := Option.map_eq_some_iff.1 hname
    rw [hf, Option.getD_some]
    exact .register hreserve hf

theorem does_of_beginVisit {begins : Bool} (h : r.beginVisit t = .ok (begins, r')) :
    r.Does (.beginVisit t) (.begun begins) r' := by
  obtain ⟨name, r₁, hreserve, ⟨rfl, rfl⟩ | ⟨rfl, rfl⟩⟩ := beginVisit_eq_ok h
  · rw [visited_reserve hreserve]
    exact .begins hreserve (visited_beginVisit_true h).2
  · exact .refuses hreserve

theorem exists_of_map_eq_ok {α β : Type} {f : α → β} {outcome : Except NameOverflow α} {b : β}
    (h : outcome.map f = .ok b) : ∃ a, outcome = .ok a ∧ f a = b := by
  cases outcome with
  | error e => cases h
  | ok a => exact ⟨a, rfl, Except.ok.inj h⟩

theorem does_of_perform (h : r.perform c = .ok (a, r')) : r.Does c a r' := by
  cases c with
  | reserve t =>
    obtain ⟨pair, hreserve, ⟨⟩⟩ := exists_of_map_eq_ok h
    exact .reserve hreserve
  | register t =>
    obtain ⟨pair, hregister, ⟨⟩⟩ := exists_of_map_eq_ok h
    exact does_of_register hregister
  | beginVisit t =>
    obtain ⟨pair, hbegin, ⟨⟩⟩ := exists_of_map_eq_ok h
    exact does_of_beginVisit hbegin
  | complete t keyColumn blocks =>
    cases h
    exact .completes t keyColumn blocks

/-- **A call fails and changes nothing, or does what it can do.** -/
theorem step_cases (r : Registry) (c : Request) :
    (∃ e, r.step c = (.error e, r)) ∨ ∃ a r', r.step c = (.ok a, r') ∧ r.Does c a r' := by
  unfold step
  cases h : r.perform c with
  | error e => exact Or.inl ⟨e, rfl⟩
  | ok pair => exact Or.inr ⟨pair.1, pair.2, rfl, does_of_perform h⟩

namespace Does

theorem distinct (h : r.Does c a r') (hr : r.Distinct) : r'.Distinct := by
  cases h with
  | reserve reserved => exact hr.reserve reserved
  | register reserved => exact hr.reserve reserved
  | begins reserved => exact ⟨(hr.reserve reserved).apart, (hr.reserve reserved).taken⟩
  | refuses reserved => exact hr.reserve reserved
  | completes t keyColumn blocks => exact hr.modify (keepsIdentity_complete keyColumn blocks)

theorem keeps (h : r.Does c a r') : r.Keeps r' := by
  cases h with
  | reserve reserved => exact keeps_reserve reserved
  | register reserved => exact keeps_reserve reserved
  | begins reserved => exact fun u name hname => keeps_reserve reserved u name hname
  | refuses reserved => exact keeps_reserve reserved
  | completes t keyColumn blocks =>
    intro u name hname
    rw [complete, nameOf?_modify (keepsIdentity_complete keyColumn blocks), hname]

/-- The name that a call answers is the name of the table. -/
theorem nameOf? (h : r.Does c a r') (hnamed : named? (c, .ok a) = some (t, name)) :
    r'.nameOf? t = some name := by
  cases h <;> cases hnamed
  · rename_i reserved
    exact nameOf?_reserve reserved
  · rename_i reserved found
    exact nameOf?_reserve reserved

theorem visited (h : r.Does c a r') : r'.visited = r.visited ++ (begun? (c, .ok a)).toList := by
  cases h with
  | reserve reserved => simpa [begun?] using visited_reserve reserved
  | register reserved => simpa [begun?] using visited_reserve reserved
  | begins => rfl
  | refuses reserved => simpa [begun?] using visited_reserve reserved
  | completes => simp [begun?]

/-- A visit does not begin twice. -/
theorem first (h : r.Does c a r') (hbegun : begun? (c, .ok a) = some t) :
    t.isIn r.visited = false := by
  cases h <;> cases hbegun
  rename_i first
  exact first

end Does

theorem keeps_step (r : Registry) (c : Request) : r.Keeps (r.step c).2 := by
  rcases r.step_cases c with ⟨e, h⟩ | ⟨a, r', h, hdoes⟩ <;> rw [h]
  · exact Keeps.refl r
  · exact hdoes.keeps

/-! ## Calls one after the other -/

/-- The calls made, each with its answer. -/
def trace (r : Registry) : List Request → List (Request × Except NameOverflow Answer)
  | [] => []
  | c :: rest => (c, (r.step c).1) :: (r.step c).2.trace rest

/-- The registry after these calls. -/
def after (r : Registry) : List Request → Registry
  | [] => r
  | c :: rest => (r.step c).2.after rest

/-- **A registry in step with its answers.** -/
structure InStep (trace : List (Request × Except NameOverflow Answer)) (r : Registry) : Prop where
  distinct : r.Distinct
  named : ∀ t name, (t, name) ∈ trace.filterMap named? → r.nameOf? t = some name
  visited : r.visited = trace.filterMap begun?
  once : r.visited.Pairwise fun t u => t.same u = false

variable {trace : List (Request × Except NameOverflow Answer)}

theorem InStep.new (namer : Namer) : InStep [] (.new namer) :=
  ⟨.new namer, by simp, rfl, .nil⟩

theorem InStep.step (h : InStep trace r) (c : Request) :
    InStep (trace ++ [(c, (r.step c).1)]) (r.step c).2 := by
  rcases r.step_cases c with ⟨e, hstep⟩ | ⟨a, r', hstep, hdoes⟩ <;> rw [hstep]
  · -- a failure names nothing and begins nothing
    have hnamed : named? (c, .error e) = none := by cases c <;> rfl
    have hbegun : begun? (c, .error e) = none := by cases c <;> rfl
    exact ⟨h.distinct, by simpa [hnamed] using h.named, by simpa [hbegun] using h.visited, h.once⟩
  · refine ⟨hdoes.distinct h.distinct, fun t name hmem => ?_, ?_, ?_⟩
    · rw [List.filterMap_append, List.mem_append] at hmem
      rcases hmem with hold | hnew
      · exact hdoes.keeps t name (h.named t name hold)
      · obtain ⟨_, hmem, hnamed⟩ := List.mem_filterMap.1 hnew
        obtain rfl := List.mem_singleton.1 hmem
        exact hdoes.nameOf? hnamed
    · rw [hdoes.visited, h.visited, List.filterMap_append]
      cases hbegun : begun? (c, .ok a) <;> simp [hbegun]
    · rw [hdoes.visited]
      refine List.pairwise_append.2 ⟨h.once, ?_, fun t ht u hu => ?_⟩
      · cases begun? (c, .ok a) <;> simp
      · -- a visit that begins is of none of the tables visited before
        have hfirst := hdoes.first (Option.mem_toList.1 hu)
        rw [TableName.same_comm]
        simpa using List.any_eq_false.1 hfirst t ht

theorem InStep.after (h : InStep trace r) (calls : List Request) :
    InStep (trace ++ r.trace calls) (r.after calls) := by
  induction calls generalizing trace r with
  | nil => simpa [Registry.trace, Registry.after] using h
  | cons c rest ih =>
    have hrest := ih (h.step c)
    rwa [List.append_assoc] at hrest

theorem keeps_after (r : Registry) (calls : List Request) : r.Keeps (r.after calls) := by
  induction calls generalizing r with
  | nil => exact Keeps.refl r
  | cons c rest ih => exact (r.keeps_step c).trans (ih _)

/-! ## The functions listed -/

/-- The functions listed are those of the tables that are done, in the order
of their visits. -/
theorem forall₂_functions (r : Registry) :
    List.Forall₂ (fun f t => f.table.same t = true ∧ r.get? t = some f) r.functions
      (r.visited.filter fun t => r.state? t = some .done) := by
  unfold functions
  -- the induction is on the visits that are left, while `r` goes on to tell what is done
  generalize hts : r.visited = ts
  clear hts
  induction ts with
  | nil => exact .nil
  | cons t rest ih =>
    rw [List.filterMap_cons, List.filter_cons]
    by_cases hdone : r.state? t = some .done
    · obtain ⟨e, he, hd⟩ := state?_eq_done.1 hdone
      simp only [he, hd, hdone, if_true, decide_true]
      exact .cons ⟨(mem_of_record? he).2, by rw [get?, he, Option.map_some]⟩ ih
    · simp only [hdone, decide_false, Bool.false_eq_true, if_false]
      cases he : r.record? t with
      | none => exact ih
      | some e =>
        have hopen : e.isDone = false :=
          Bool.eq_false_iff.2 fun hd => hdone (state?_eq_done.2 ⟨e, he, hd⟩)
        simpa [hopen] using ih

/-- Tables that are visited once are listed once. -/
theorem pairwise_functions (h : r.visited.Pairwise fun t u => t.same u = false) :
    r.functions.Pairwise fun f g => f.table.same g.table = false := by
  refine List.pairwise_filterMap.2 (h.imp fun {t u} hapart f hf g hg => ?_)
  split at hf
  · rename_i e he
    split at hg
    · rename_i e' he'
      obtain ⟨-, ⟨⟩⟩ := Option.ite_none_right_eq_some.1 hf
      obtain ⟨-, ⟨⟩⟩ := Option.ite_none_right_eq_some.1 hg
      rw [TableName.same_congr_left (mem_of_record? he).2,
        TableName.same_congr_right (mem_of_record? he').2]
      exact hapart
    · cases hg
  · cases hf

/-- **Identity is stable**, whatever calls are made and however many of them
fail. No two functions share a table or a name, the names that were answered
are those of their tables, and no call changes them. The visit of a table
begins once, and the functions listed are those of the tables that are done,
each once and in the order in which the visits began. A call that fails
changes nothing, even where it writes as it goes. -/
theorem history_stable (namer : Namer) (calls : List Request) :
    let r := (new namer).after calls
    let trace := (new namer).trace calls
    (r.records.Pairwise fun e e' =>
        e.function.table.same e'.function.table = false ∧ e.function.name ≠ e'.function.name) ∧
      (∀ t name, (t, name) ∈ trace.filterMap named? → r.nameOf? t = some name) ∧
      (∀ more, r.Keeps (r.after more)) ∧
      ((trace.filterMap begun?).Pairwise fun t u => t.same u = false) ∧
      (r.functions.Pairwise fun f g => f.table.same g.table = false) ∧
      List.Forall₂ (fun f t => f.table.same t = true ∧ r.get? t = some f) r.functions
        ((trace.filterMap begun?).filter fun t => r.state? t = some .done) ∧
      ∀ c, r.inPlace c = r.step c ∧ ∀ e, (r.inPlace c).1 = .error e → (r.inPlace c).2 = r := by
  intro r trace
  have h : InStep trace r := (InStep.new namer).after calls
  have hbegun := h.visited
  refine ⟨h.distinct.apart, h.named, r.keeps_after, hbegun ▸ h.once, pairwise_functions h.once,
    hbegun ▸ r.forall₂_functions, fun c => ⟨r.inPlace_eq_step c, fun e hfails => ?_⟩⟩
  rw [inPlace_eq_step] at hfails ⊢
  rcases r.step_cases c with ⟨e', hstep⟩ | ⟨a, r', hstep, -⟩
  · rw [hstep]
  · rw [hstep] at hfails
    cases hfails

/-- The order of visits counts, and not that of mention or of writing; a
table goes by both of its spellings. -/
example :
    let calls : List Request := [.reserve ⟨"", "a"⟩, .beginVisit ⟨"", "b"⟩, .beginVisit ⟨"", "a"⟩,
      .complete ⟨"", "A"⟩ "id" [], .beginVisit ⟨"", "A"⟩, .complete ⟨"", "b"⟩ "id" []]
    ((new (.new "del_" 63)).trace calls).filterMap begun? = [⟨"", "b"⟩, ⟨"", "a"⟩] ∧
      ((new (.new "del_" 63)).after calls).names = ["del_b", "del_a"] := by
  decide +kernel

end Registry

end DeleteCascade
