import DeleteCascade.Proofs.Function.Registry
import DeleteCascade.Proofs.Synthesis.Written
import DeleteCascade.Run.Basic
import DeleteCascade.Synthesis.Basic
/-!
# Programs — what a synthesis makes

The registry stays sound all through a synthesis (`Setting.Sound`): its
functions are kept apart, every finished one is a drafted body as it ends
up, and what it calls is called by its name. Each visit and each cut keeps
this (`visit_keeps`, `foldlM_cutTable`). From it `serves_of_synthesize`
reads what a run relies on: every function that is looked up serves its
table with a body of the right shape, and calls the functions of the tables
it means.
-/

namespace DeleteCascade

namespace Setting

variable {s : Setting} {t t' : TableName} {notes captured : List String}

/-! ## The registry of a synthesis -/

/-- A finished function is a drafted body as it ends up. -/
structure Writes (s : Setting) (notes : List String) (f : DeleteFunction) (t : TableName)
    (drafted : List (Block TableName)) (callee : TableName → Callee)
    (w : Block TableName → Block Callee) : Prop where
  table : t.same f.table
  draft : (s.draft t).outcome = .ok (f.keyColumn, drafted)
  notes : (s.draft t).notes ⊆ notes
  named : ∀ u, (callee u).table = u
  blocks : f.blocks = drafted.map w
  written : ∀ b, Written callee b (w b)

/-- **The registry is sound**: its functions are kept apart, each finished
one is a drafted body, and what they call is called by its name. -/
structure Sound (s : Setting) (r : Registry) (notes : List String) : Prop where
  distinct : r.Distinct
  writes : ∀ e ∈ r.records, e.isDone = true →
    ∃ t drafted callee w, s.Writes notes e.function t drafted callee w
  names : ∀ e ∈ r.records, e.isDone = true → ∀ c ∈ e.function.callees,
    r.nameOf? c.table = some c.function

/-- Remarks are added to those there are. -/
theorem subset_addNotes (notes more : List String) :
    notes ⊆ more.foldl addNote notes ∧ more ⊆ more.foldl addNote notes := by
  induction more generalizing notes with
  | nil => simp
  | cons text more ih =>
    have hadd : notes ⊆ addNote notes text ∧ text ∈ addNote notes text := by
      unfold addNote
      split
      · rename_i hin
        exact ⟨fun _ h => h, by simpa using hin⟩
      · simp
    obtain ⟨hold, hnew⟩ := ih (addNote notes text)
    exact ⟨List.Subset.trans hadd.1 hold, List.cons_subset.2 ⟨hold hadd.2, hnew⟩⟩

theorem Writes.mono {notes' : List String} {f : DeleteFunction} {drafted : List (Block TableName)}
    {callee : TableName → Callee} {w : Block TableName → Block Callee}
    (h : s.Writes notes f t drafted callee w) (hn : notes ⊆ notes') :
    s.Writes notes' f t drafted callee w :=
  ⟨h.table, h.draft, List.Subset.trans h.notes hn, h.named, h.blocks, h.written⟩

namespace Sound

variable {r r' : Registry}

theorem new (namer : Namer) : s.Sound (.new namer) [] :=
  ⟨.new namer, by simp [Registry.new], by simp [Registry.new]⟩

/-- What keeps the finished functions and the names keeps a sound registry
sound. -/
theorem of_keeps (h : s.Sound r notes) (hdist : r'.Distinct) (hkeeps : r.Keeps r')
    (hdone : ∀ e ∈ r'.records, e.isDone = true → e ∈ r.records) : s.Sound r' notes :=
  ⟨hdist, fun e he hd => h.writes e (hdone e he hd) hd,
    fun e he hd c hc => hkeeps _ _ (h.names e (hdone e he hd) hd c hc)⟩

theorem reserve (h : s.Sound r notes) {name : String} (hr : r.reserve t = .ok (name, r')) :
    s.Sound r' notes := by
  refine h.of_keeps (h.distinct.reserve hr) (Registry.keeps_reserve hr) fun e he hd => ?_
  rcases Registry.reserve_eq_ok hr with ⟨e', -, -, rfl⟩ | ⟨-, namer, -, rfl⟩
  · exact he
  · rcases List.mem_append.1 he with he | he
    · exact he
    · obtain rfl := List.mem_singleton.1 he
      cases hd

theorem reserveAll {ts : List TableName} (h : s.Sound r notes) (hr : r.reserveAll ts = .ok r') :
    s.Sound r' notes := by
  induction ts generalizing r with
  | nil =>
    cases hr
    exact h
  | cons t ts ih =>
    unfold Registry.reserveAll at hr
    split at hr
    · cases hr
    · rename_i hr₁
      exact ih (h.reserve hr₁) hr

theorem beginVisit (h : s.Sound r notes) {begins : Bool} (hr : r.beginVisit t = .ok (begins, r')) :
    s.Sound r' notes := by
  obtain ⟨name, r₁, hr₁, ⟨-, rfl⟩ | ⟨-, rfl⟩⟩ := Registry.beginVisit_eq_ok hr
  · have h₁ := h.reserve hr₁
    exact h₁.of_keeps ⟨h₁.distinct.apart, h₁.distinct.taken⟩ (fun _ _ hn => hn) fun _ he _ => he
  · exact h.reserve hr₁

/-- Writing the function of a table finishes it. -/
theorem write (h : s.Sound r notes) {notes' : List String} {called : List TableName}
    (hr : s.write r notes t = .ok (r', notes', called)) : s.Sound r' notes' := by
  unfold Setting.write at hr
  dsimp only at hr
  split at hr
  · cases hr
  · rename_i r₁ hreserve
    split at hr
    · cases hr
    · rename_i k blocks houtcome
      cases hr
      have h₁ := h.reserveAll hreserve
      obtain ⟨-, -, hnames⟩ := Registry.reserveAll_eq_ok h.distinct hreserve
      obtain ⟨-, hcallees, -⟩ := isBody_of_draft houtcome
      obtain ⟨hold, hnew⟩ := subset_addNotes notes (s.draft t).notes
      have hid := Registry.keepsIdentity_complete k (blocks.map (·.map r₁.callee))
      refine ⟨h₁.distinct.modify hid, ?_, ?_⟩
      · intro g hg hd
        obtain ⟨e, he, rfl⟩ := Registry.mem_modify.1 hg
        split
        · rename_i hsame
          exact ⟨t, blocks, r₁.callee, (·.map r₁.callee), TableName.same_symm hsame, houtcome, hnew,
            fun _ => rfl, rfl, .named⟩
        · rename_i hother
          rw [if_neg hother] at hd
          obtain ⟨t', drafted, callee, w, hw⟩ := h₁.writes e he hd
          exact ⟨t', drafted, callee, w, hw.mono hold⟩
      · intro g hg hd c hc
        rw [Registry.complete, Registry.nameOf?_modify hid]
        obtain ⟨e, he, rfl⟩ := Registry.mem_modify.1 hg
        split at hc
        · obtain ⟨b', hb', hc⟩ := List.mem_flatMap.1 hc
          obtain ⟨b, hb, rfl⟩ := List.mem_map.1 hb'
          rw [Block.callees_map] at hc
          obtain ⟨u, hu, rfl⟩ := List.mem_map.1 hc
          obtain ⟨name, hname⟩ := hnames u (hcallees b hb hu)
          simp [Registry.callee, hname]
        · rename_i hother
          rw [if_neg hother] at hd
          exact h₁.names e he hd c hc

end Sound

/-! ## The steps of a synthesis -/

/-- A visit goes on without a table that was visited before, and else with
what the function written for it calls. -/
theorem visit_cons_eq_ok {rest : List TableName} {r : Registry} {result : Synthesis}
    (h : s.visit (t :: rest) r notes = .ok result) :
    (∃ r', r.beginVisit t = .ok (false, r') ∧ s.visit rest r' notes = .ok result) ∨
      ∃ r' r'' notes' called, r.beginVisit t = .ok (true, r') ∧
        s.write r' notes t = .ok (r'', notes', called) ∧
        s.visit (called ++ rest) r'' notes' = .ok result := by
  unfold visit at h
  split at h
  · cases h
  · rename_i r' hbegun
    exact Or.inl ⟨r', hbegun, h⟩
  · rename_i r' hbegun
    split at h
    · cases h
    · rename_i r'' notes' called hwritten
      exact Or.inr ⟨r', r'', notes', called, hbegun, hwritten, h⟩

/-- **What each step of a visit keeps, with the tables that are still pending,
holds in the end**, when none is. -/
theorem visit_ends {P : List TableName → Registry → List String → Prop}
    (hdrop : ∀ {t rest r r' notes}, P (t :: rest) r notes → r.beginVisit t = .ok (false, r') →
      P rest r' notes)
    (hwrite : ∀ {t rest r r' r'' notes notes' called}, P (t :: rest) r notes →
      r.beginVisit t = .ok (true, r') → s.write r' notes t = .ok (r'', notes', called) →
        P (called ++ rest) r'' notes')
    (pending : List TableName) {r : Registry} (h : P pending r notes) {result : Synthesis}
    (hr : s.visit pending r notes = .ok result) : P [] result.registry result.notes := by
  induction pending, r, notes using Setting.visit.induct (s := s) with
  | case1 r notes =>
    rw [visit] at hr
    cases hr
    exact h
  | case2 r notes t rest e hbegun =>
    rcases visit_cons_eq_ok hr with ⟨r', hb, -⟩ | ⟨r', r'', notes', called, hb, -⟩ <;>
      rw [hbegun] at hb <;> cases hb
  | case3 r notes t rest r₁ hbegun ih =>
    rcases visit_cons_eq_ok hr with ⟨r', hb, hrest⟩ | ⟨r', r'', notes', called, hb, -⟩
    · rw [hbegun] at hb
      cases hb
      exact ih (hdrop h hbegun) hrest
    · rw [hbegun] at hb
      cases hb
  | case4 r notes t rest r₁ hbegun e hwritten =>
    rcases visit_cons_eq_ok hr with ⟨r', hb, -⟩ | ⟨r', r'', notes', called, hb, hw, -⟩ <;>
      rw [hbegun] at hb <;> cases hb
    rw [hwritten] at hw
    cases hw
  | case5 r notes t rest r₁ hbegun r₂ notes₂ called hwritten ih =>
    rcases visit_cons_eq_ok hr with ⟨r', hb, -⟩ | ⟨r', r'', notes', called', hb, hw, hrest⟩
    · rw [hbegun] at hb
      cases hb
    · rw [hbegun] at hb
      cases hb
      rw [hwritten] at hw
      cases hw
      exact ih (hwrite h hbegun hwritten) hrest

/-- What each visit keeps holds in the end. -/
theorem visit_keeps {P : Registry → List String → Prop}
    (hbegin : ∀ {r r' notes t begins}, P r notes → r.beginVisit t = .ok (begins, r') → P r' notes)
    (hwrite : ∀ {r r' notes notes' t called}, P r notes →
      s.write r notes t = .ok (r', notes', called) → P r' notes')
    (pending : List TableName) {r : Registry} (h : P r notes) {result : Synthesis}
    (hr : s.visit pending r notes = .ok result) : P result.registry result.notes :=
  visit_ends (P := fun _ => P) (fun h hbegun => hbegin h hbegun)
    (fun h hbegun hwritten => hwrite (hbegin h hbegun) hwritten) pending h hr

/-- A visit, followed for some steps. -/
def visitFor (s : Setting) :
    Nat → List TableName → Registry → List String → Except SynthesisError Synthesis
  | 0, pending, r, notes => s.visit pending r notes
  | _ + 1, [], r, notes => .ok ⟨r, notes⟩
  | n + 1, t :: rest, r, notes =>
    match r.beginVisit t with
    | .error e => .error (.names e)
    | .ok (false, r') => s.visitFor n rest r' notes
    | .ok (true, r') =>
      match s.write r' notes t with
      | .error e => .error e
      | .ok (r'', notes', called) => s.visitFor n (called ++ rest) r'' notes'

/-- However long it is followed, the rest is a visit again. -/
theorem visitFor_eq (s : Setting) (n : Nat) : s.visitFor n = s.visit := by
  funext pending r notes
  induction n generalizing pending r notes with
  | zero => rfl
  | succ n ih =>
    cases pending with
    | nil => rw [visitFor, visit]
    | cons t rest =>
      rw [visitFor, visit]
      rcases r.beginVisit t with e | ⟨_ | _, r'⟩
      · rfl
      · exact ih _ _ _
      · dsimp only
        rcases s.write r' notes t with e | ⟨r'', notes', called⟩
        · rfl
        · exact ih _ _ _

/-- One step of a visit. -/
theorem visit_cons (s : Setting) (t : TableName) (rest : List TableName) (r : Registry)
    (notes : List String) : s.visit (t :: rest) r notes =
      match r.beginVisit t with
      | .error e => .error (.names e)
      | .ok (false, r') => s.visit rest r' notes
      | .ok (true, r') =>
        match s.write r' notes t with
        | .error e => .error e
        | .ok (r'', notes', called) => s.visit (called ++ rest) r'' notes' := by
  conv => lhs; rw [← visitFor_eq s 1]
  rfl

/-- What cutting one table's function does to the registry. -/
theorem cutTable_eq_ok {r r' : Registry} {notes' : List String}
    (h : s.cutTable (r, notes) t = .ok (r', notes')) :
    (r' = r ∧ notes' = notes ∧ ∀ f, r.get? t = some f → ∀ b ∈ f.blocks, leadsBack r t b = false) ∨
      ∃ f is, r.get? t = some f ∧ s.schema.incoming t = .ok is ∧
      r' = r.editBlocks t (fun blocks => blocks.map (cutBlock r t is)) ∧
      notes' = (f.blocks.filterMap (cutNote? r t is)).foldl addNote notes := by
  unfold cutTable at h
  dsimp only at h
  split at h
  · rename_i hnone
    cases h
    exact Or.inl ⟨rfl, rfl, fun f hf => by rw [hnone] at hf; cases hf⟩
  · rename_i f hf
    split at h
    · split at h
      · cases h
      · rename_i is his
        cases h
        exact Or.inr ⟨f, is, hf, his, rfl, rfl⟩
    · rename_i hany
      cases h
      refine Or.inl ⟨rfl, rfl, fun f' hf' b hb => ?_⟩
      rw [hf] at hf'
      cases hf'
      exact Bool.eq_false_iff.2 fun hback => hany (List.any_eq_true.2 ⟨b, hb, hback⟩)

/-- Cutting keeps the registry sound. -/
theorem Sound.cutTable {r r' : Registry} {notes' : List String} (h : s.Sound r notes)
    (hr : s.cutTable (r, notes) t = .ok (r', notes')) : s.Sound r' notes' := by
  rcases cutTable_eq_ok hr with ⟨rfl, rfl, -⟩ | ⟨f, is, hf, his, rfl, rfl⟩
  · exact h
  · have hold := (subset_addNotes notes (f.blocks.filterMap (cutNote? r t is))).1
    have hid : Registry.KeepsIdentity fun e => { e with function :=
        { e.function with blocks := e.function.blocks.map (cutBlock r t is) } } :=
      fun e => ⟨rfl, rfl⟩
    refine ⟨h.distinct.modify hid, ?_, ?_⟩
    · intro g hg hd
      obtain ⟨e, he, rfl⟩ := Registry.mem_modify.1 hg
      split at hd
      · rename_i hsame
        obtain ⟨t', drafted, callee, w, hw⟩ := h.writes e he hd
        refine ⟨t', drafted, callee, cutBlock r t is ∘ w, ?_⟩
        rw [if_pos hsame]
        refine ⟨hw.table, hw.draft, List.Subset.trans hw.notes hold, hw.named, ?_, fun b =>
          (hw.written b).cutBlock r t is⟩
        simp [hw.blocks]
      · rename_i hother
        obtain ⟨t', drafted, callee, w, hw⟩ := h.writes e he hd
        rw [if_neg hother]
        exact ⟨t', drafted, callee, w, hw.mono hold⟩
    · intro g hg hd c hc
      rw [Registry.editBlocks, Registry.nameOf?_modify hid]
      obtain ⟨e, he, rfl⟩ := Registry.mem_modify.1 hg
      split at hd
      · rename_i hsame
        rw [if_pos hsame] at hc
        obtain ⟨b', hb', hc⟩ := List.mem_flatMap.1 hc
        obtain ⟨b, hb, rfl⟩ := List.mem_map.1 hb'
        refine h.names e he hd c (List.mem_flatMap.2 ⟨b, hb, ?_⟩)
        rcases Written.cutBlock_eq r t is b with heq | ⟨d, rfl, heq⟩
        · rwa [heq] at hc
        · rwa [heq] at hc
      · rename_i hother
        rw [if_neg hother] at hc
        exact h.names e he hd c hc

/-- **What each cut keeps holds in the end.** -/
theorem foldlM_cutTable {P : Registry → List String → Prop}
    (hcut : ∀ {r r' notes notes' t}, P r notes → s.cutTable (r, notes) t = .ok (r', notes') →
      P r' notes')
    {ts : List TableName} {r r' : Registry} {notes' : List String} (h : P r notes)
    (hr : ts.foldlM s.cutTable (r, notes) = .ok (r', notes')) : P r' notes' :=
  Schema.keeps_of_foldlM_ok (P := fun state => P state.1 state.2)
    (fun _ _ _ _ h hstep => hcut h hstep) h hr

/-- A synthesis visits what its root needs, and then cuts the loops. -/
theorem synthesize_eq_ok {namer : Namer} {root : TableName} {result : Synthesis}
    (h : s.synthesize namer root = .ok result) :
    ∃ visited, s.visit [root] (.new namer) [] = .ok visited ∧
      s.cutCycles visited.registry visited.notes = .ok (result.registry, result.notes) := by
  unfold synthesize at h
  split at h
  · cases h
  · rename_i visited hvisited
    refine ⟨visited, hvisited, ?_⟩
    cases hcut : s.cutCycles visited.registry visited.notes with
    | error e =>
      rw [hcut] at h
      cases h
    | ok cut =>
      rw [hcut] at h
      cases h
      rfl

/-- **A finished function of a sound registry has a body of the right shape.** -/
theorem Sound.body {r : Registry} (h : s.Sound r notes) {e : FunctionRecord} (he : e ∈ r.records)
    (hd : e.isDone = true) : s.schema.key? e.function.table = some e.function.keyColumn ∧
      ∃ captured front back, e.function.blocks = front ++ .localDelete captured :: back ∧
        s.IsBody e.function.table (·.table) notes captured front back := by
  obtain ⟨t, drafted, callee, w, hw⟩ := h.writes e he hd
  obtain ⟨hk, -, captured, front, back, hblocks, hbody⟩ := isBody_of_draft hw.draft
  refine ⟨by rw [← Schema.key?_congr hw.table, hk], captured, front.map w, back.map w, ?_,
    (hbody.written hw.written hw.named hw.table).mono hw.notes⟩
  rw [hw.blocks, hblocks]
  simp [(hw.written (.localDelete captured)).localDelete]

/-- **A synthesis leaves a sound registry.** -/
theorem sound_of_synthesize {namer : Namer} {root : TableName} {result : Synthesis}
    (h : s.synthesize namer root = .ok result) : s.Sound result.registry result.notes := by
  obtain ⟨visited, hvisit, hcut⟩ := synthesize_eq_ok h
  have hvisited := visit_keeps (P := s.Sound) (fun h hr => h.beginVisit hr)
    (fun h hr => h.write hr) [root] (.new namer) hvisit
  exact foldlM_cutTable (fun h hr => h.cutTable hr) hvisited hcut

end Setting

/-! ## What a run relies on -/

namespace Program

variable {s : Setting} {notes : List String}

/-- **A function serves its table** in a program: its body has the right
shape, and the functions it calls are those of the tables it means. -/
structure Serves (p : Program) (s : Setting) (notes : List String) (f : DeleteFunction) : Prop where
  key : s.schema.key? f.table = some f.keyColumn
  body : ∃ captured front back, f.blocks = front ++ .localDelete captured :: back ∧
    s.IsBody f.table (·.table) notes captured front back
  callees : ∀ c ∈ f.callees, ∀ g, p.lookup c.function = some g → g.table.same c.table

theorem mem_of_lookup {p : Program} {name : String} {f : DeleteFunction}
    (h : p.lookup name = some f) : f ∈ p.functions ∧ f.name = name := by
  unfold lookup at h
  exact ⟨List.mem_reverse.1 (List.mem_of_find?_eq_some h), by simpa using List.find?_some h⟩

/-- **Every function of a synthesized program serves its table.** -/
theorem serves_of_synthesize {namer : Namer} {root : TableName} {result : Synthesis} {depth : Nat}
    (h : s.synthesize namer root = .ok result) {name : String} {f : DeleteFunction}
    (hf : (Program.mk result.registry.functions depth).lookup name = some f) :
    (Program.mk result.registry.functions depth).Serves s result.notes f := by
  have hsound := Setting.sound_of_synthesize h
  obtain ⟨e, he, hd, rfl, -⟩ := Registry.mem_functions (mem_of_lookup hf).1
  obtain ⟨hkey, hbody⟩ := hsound.body he hd
  refine ⟨hkey, hbody, fun c hc g hg => ?_⟩
  have hname := hsound.names e he hd c hc
  obtain ⟨hmem, hgname⟩ := mem_of_lookup hg
  obtain ⟨e', he', -, rfl, -⟩ := Registry.mem_functions hmem
  simp only [Registry.nameOf?, Registry.get?, Option.map_eq_some_iff] at hname
  obtain ⟨_, ⟨e'', he'', rfl⟩, hname⟩ := hname
  obtain ⟨hmem'', hsame⟩ := Registry.mem_of_record? he''
  obtain rfl := hsound.distinct.eq_of_mem he' hmem'' (Or.inr (hgname.trans hname.symm))
  exact hsame

end Program

end DeleteCascade
