import DeleteCascade.Synthesis.Body
/-!
# Drafts — what a draft ensures

`Draft.Ensures d post` says that if the draft `d` has a result then it, the
tables mentioned and the remarks made satisfy `post`. The rules follow the
way drafts are put together, so that a draft is read from its first step to
its last (`ensures_bind`). `ensures_gather` and `outcome_of_gather` are the
two directions for a list of drafts.
-/

namespace DeleteCascade

namespace Draft

variable {α β : Type}

/-- **What a draft ensures of its mentions, its remarks and its result.** -/
def Ensures (d : Draft α) (post : List TableName → List String → α → Prop) : Prop :=
  ∀ a, d.outcome = .ok a → post d.mentions d.notes a

variable {post post' : List TableName → List String → α → Prop}

theorem Ensures.mono {d : Draft α} (h : d.Ensures post)
    (himp : ∀ ms ns a, post ms ns a → post' ms ns a) : d.Ensures post' :=
  fun a ha => himp _ _ a (h a ha)

@[simp] theorem ensures_pure (a : α) : (pure a : Draft α).Ensures post ↔ post [] [] a := by
  constructor
  · intro h
    exact h a rfl
  · intro h b hb
    cases hb
    exact h

theorem ensures_bind {d : Draft α} {f : α → Draft β}
    {post : List TableName → List String → β → Prop} :
    (d >>= f).Ensures post ↔ d.Ensures fun ms ns a =>
      (f a).Ensures fun ms' ns' b => post (ms ++ ms') (ns ++ ns') b := by
  change (d.andThen f).Ensures post ↔ _
  unfold Ensures andThen
  cases hd : d.outcome with
  | error e => simp
  | ok a =>
    constructor
    · intro h a' ha' b hb
      cases ha'
      exact h b hb
    · intro h b hb
      exact h a rfl b hb

theorem ensures_map {d : Draft α} {f : α → β} {post : List TableName → List String → β → Prop} :
    (f <$> d).Ensures post ↔ d.Ensures fun ms ns a => post ms ns (f a) := by
  change (d >>= fun a => pure (f a)).Ensures post ↔ _
  rw [ensures_bind]
  constructor
  · intro h
    refine h.mono fun ms ns a ha => ?_
    simpa using ha
  · intro h
    refine h.mono fun ms ns a ha => ?_
    simpa using ha

@[simp] theorem ensures_mention {t : TableName}
    {post : List TableName → List String → TableName → Prop} :
    (mention t).Ensures post ↔ post [t] [] t := by
  constructor
  · intro h
    exact h t rfl
  · intro h u hu
    cases hu
    exact h

@[simp] theorem ensures_note {text : String} {post : List TableName → List String → Unit → Prop} :
    (note text).Ensures post ↔ post [] [text] () := by
  constructor
  · intro h
    exact h () rfl
  · intro h u _
    exact h

theorem ensures_ofExcept {x : Except SynthesisError α} :
    (ofExcept x).Ensures post ↔ ∀ a, x = .ok a → post [] [] a := Iff.rfl

theorem mapError_eq_ok {ε ε' : Type} {f : ε → ε'} {x : Except ε α} {a : α} :
    x.mapError f = .ok a ↔ x = .ok a := by
  cases x with
  | error e =>
    change Except.error (f e) = Except.ok a ↔ _
    simp only [reduceCtorEq]
  | ok b =>
    change Except.ok b = Except.ok a ↔ _
    simp only [Except.ok.injEq]

theorem ensures_ask {t : TableName} {x : Except LookupError α} :
    (ask t x).Ensures post ↔ ∀ a, x = .ok a → post [] [] a := by
  simp only [ask, ensures_ofExcept, mapError_eq_ok]

/-- What holds of each item drafted holds of all of them, if more mentions
and remarks do no harm. -/
theorem ensures_gather {f : α → Draft (List β)} {l : List α}
    {P : List TableName → List String → β → Prop}
    (hmono : ∀ {ms ms' ns ns' b}, ms ⊆ ms' → ns ⊆ ns' → P ms ns b → P ms' ns' b)
    (h : ∀ a ∈ l, (f a).Ensures fun ms ns bs => ∀ b ∈ bs, P ms ns b) :
    (gather f l).Ensures fun ms ns bs => ∀ b ∈ bs, P ms ns b := by
  induction l with
  | nil => simp [gather]
  | cons a l ih =>
    unfold gather
    rw [ensures_bind]
    refine (h a (by simp)).mono fun ms ns first hfirst => ?_
    rw [ensures_bind]
    refine (ih fun a' ha' => h a' (by simp [ha'])).mono fun ms' ns' others hothers => ?_
    rw [ensures_pure]
    intro b hb
    rcases List.mem_append.1 hb with hb | hb
    · exact hmono (by simp) (by simp) (hfirst b hb)
    · exact hmono (by simp) (by simp) (hothers b hb)

/-- Each item drafted is part of the whole. -/
theorem outcome_of_gather {f : α → Draft (List β)} {l : List α} {out : List β}
    (h : (gather f l).outcome = .ok out) {a : α} (ha : a ∈ l) :
    ∃ bs, (f a).outcome = .ok bs ∧ bs ⊆ out := by
  induction l generalizing out with
  | nil => cases ha
  | cons a' l ih =>
    unfold gather at h
    obtain ⟨first, hfirst, h⟩ := outcome_bind_eq_ok.1 h
    obtain ⟨others, hothers, h⟩ := outcome_bind_eq_ok.1 h
    rw [outcome_pure, Except.ok.injEq] at h
    subst h
    rcases List.mem_cons.1 ha with rfl | ha
    · exact ⟨first, hfirst, by simp⟩
    · obtain ⟨bs, hbs, hsub⟩ := ih hothers ha
      exact ⟨bs, hbs, List.subset_append_of_subset_right _ hsub⟩

/-- And the whole has nothing else. -/
theorem mem_of_gather {f : α → Draft (List β)} {l : List α} {out : List β}
    (h : (gather f l).outcome = .ok out) {b : β} (hb : b ∈ out) :
    ∃ a ∈ l, ∃ bs, (f a).outcome = .ok bs ∧ b ∈ bs := by
  have hall : (gather f l).Ensures fun _ _ bs =>
      ∀ b ∈ bs, ∃ a ∈ l, ∃ bs, (f a).outcome = .ok bs ∧ b ∈ bs :=
    ensures_gather (fun _ _ h => h) fun a ha bs hbs b hb => ⟨a, ha, bs, hbs, hb⟩
  exact hall out h b hb

/-- What was remarked on first comes first. -/
theorem notes_bind {d : Draft α} {f : α → Draft β} {a : α} (h : d.outcome = .ok a) :
    (d >>= f).notes = d.notes ++ (f a).notes := by
  change (d.andThen f).notes = _
  simp only [andThen, h]

/-- The remarks on each item are made on the whole. -/
theorem notes_subset_gather {f : α → Draft (List β)} {l : List α} {out : List β}
    (h : (gather f l).outcome = .ok out) {a : α} (ha : a ∈ l) :
    (f a).notes ⊆ (gather f l).notes := by
  induction l generalizing out with
  | nil => cases ha
  | cons a' l ih =>
    unfold gather at h ⊢
    obtain ⟨first, hfirst, h⟩ := outcome_bind_eq_ok.1 h
    obtain ⟨others, hothers, -⟩ := outcome_bind_eq_ok.1 h
    rw [notes_bind hfirst, notes_bind hothers]
    rcases List.mem_cons.1 ha with rfl | ha
    · simp
    · exact List.subset_append_of_subset_right _
        (List.subset_append_of_subset_left _ (ih hothers ha))

end Draft

namespace Setting

variable {s : Setting}

/-- A classified link leaves no trace but its kind. -/
theorem ensures_classify {visiting owned owner : TableName} {r : Reference}
    {post : List TableName → List String → Relation → Prop} :
    (s.classify visiting r owned owner).Ensures post ↔
      ∀ kind, s.classifier owned owner (some r.childColumn) = .ok kind → post [] [] kind := by
  simp only [classify, Draft.ensures_ofExcept, Draft.mapError_eq_ok]

theorem ensures_classifyBridge {visiting owned owner : TableName} {b : Bridge}
    {post : List TableName → List String → Relation → Prop} :
    (s.classifyBridge visiting b owned owner).Ensures post ↔
      ∀ kind, s.classifier owned owner (some b.table.name) = .ok kind → post [] [] kind := by
  simp only [classifyBridge, Draft.ensures_ofExcept, Draft.mapError_eq_ok]

end Setting

end DeleteCascade
