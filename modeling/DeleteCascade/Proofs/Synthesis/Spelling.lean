import DeleteCascade.Proofs.Schema.Inheritance
import DeleteCascade.Proofs.Synthesis.Fronts
/-!
# Plans — one table in two spellings

A script names a table as it met it first, and another script may have met it
in another spelling. Both draft the same body for it (`Setting.agree_draft`), up
to the spelling of the table itself, if the classifier means tables and not their
spellings (`Setting.MeansTables`): what a draft asks of the schema does not
depend on how the table is spelled.

`Draft.Agree` follows two drafts side by side, and `Block.byTable` leaves of a
block what does not depend on names and spellings.
-/

namespace DeleteCascade

/-! ## Blocks by table -/

/-- The table, spelled as its identity is. -/
def TableName.plain (t : TableName) : TableName := ⟨t.key.1, t.key.2⟩

theorem TableName.plain_eq_iff {t u : TableName} : t.plain = u.plain ↔ t.same u := by
  simp [plain, same_iff, Prod.ext_iff]

/-- The place of a class, in a table spelled as its identity is. -/
def Discriminator.plain (d : Discriminator) : Discriminator := { d with table := d.table.plain }

namespace Block

variable {κ : Type}

/-- **A block by table**: what it calls is known by its table, where `tab` gives
the table, and so is the place where classes are stored. -/
def byTable (tab : κ → TableName) (b : Block κ) : Block TableName :=
  match b.map fun c => (tab c).plain with
  | subtypeDispatch d => subtypeDispatch { d with discriminator := d.discriminator.map (·.plain) }
  | b => b

/-- Giving names to what is called does not matter by table. -/
theorem byTable_map {callee : TableName → Callee} (hnamed : ∀ u, (callee u).table = u)
    (b : Block TableName) : (b.map callee).byTable (·.table) = b.byTable id := by
  cases b <;> simp [byTable, map, hnamed, Function.comp_def]

/-- By table, a block makes its calls. -/
theorem calls_byTable (tab : κ → TableName) (b : Block κ) (caller : Caller) :
    (b.byTable tab).calls caller =
      (b.calls caller).map fun call => ((tab call.1).plain, call.2) := by
  rw [← calls_map fun c => (tab c).plain]
  cases b <;> rfl

end Block

/-! ## Drafts side by side -/

namespace Draft

variable {α β γ δ : Type} {R : α → β → Prop} {Q : γ → δ → Prop}

/-- **Two drafts agree**: if both have results, these are related. -/
def Agree (R : α → β → Prop) (d : Draft α) (d' : Draft β) : Prop :=
  ∀ a b, d.outcome = .ok a → d'.outcome = .ok b → R a b

/-- A draft agrees with itself. -/
theorem agree_self {R : α → α → Prop} (hR : ∀ a, R a a) (d : Draft α) : Agree R d d := by
  intro a b ha hb
  rw [ha, Except.ok.injEq] at hb
  exact hb ▸ hR a

theorem agree_pure {a : α} {b : β} (h : R a b) : Agree R (pure a) (pure b) := by
  intro a' b' ha hb
  cases ha
  cases hb
  exact h

theorem Agree.bind {d : Draft α} {d' : Draft β} {f : α → Draft γ} {g : β → Draft δ}
    (h : Agree R d d') (hf : ∀ a b, R a b → Agree Q (f a) (g b)) :
    Agree Q (d >>= f) (d' >>= g) := by
  intro c c' hc hc'
  obtain ⟨a, ha, hc⟩ := outcome_bind_eq_ok.1 hc
  obtain ⟨b, hb, hc'⟩ := outcome_bind_eq_ok.1 hc'
  exact hf a b (h a b ha hb) c c' hc hc'

/-- Drafts that agree on the answer go on from one answer. -/
theorem Agree.bind_eq {d d' : Draft α} {f : α → Draft γ} {g : α → Draft δ}
    (h : Agree Eq d d') (hf : ∀ a, Agree Q (f a) (g a)) : Agree Q (d >>= f) (d' >>= g) :=
  h.bind fun a _ hab => hab ▸ hf a

theorem Agree.map {d : Draft α} {d' : Draft β} {f : α → γ} {g : β → δ} (h : Agree R d d')
    (hf : ∀ a b, R a b → Q (f a) (g b)) : Agree Q (f <$> d) (g <$> d') :=
  Agree.bind (f := fun a => pure (f a)) (g := fun b => pure (g b)) h
    fun a b hab => agree_pure (hf a b hab)

/-- What is answered in one spelling is answered in the other. -/
theorem agree_ask {t t' : TableName} {x x' : Except LookupError α}
    (h : ∀ a, x = .ok a → x' = .ok a) : Agree Eq (ask t x) (ask t' x') := by
  intro a b ha hb
  have ha' := h a (mapError_eq_ok.1 ha)
  rw [mapError_eq_ok.1 hb, Except.ok.injEq] at ha'
  exact ha'.symm

/-- What is drafted for each item agrees, seen through `F`. -/
theorem agree_gather {F : β → γ} {f g : α → Draft (List β)} {l : List α}
    (h : ∀ a ∈ l, Agree (fun bs bs' => bs.map F = bs'.map F) (f a) (g a)) :
    Agree (fun bs bs' => bs.map F = bs'.map F) (gather f l) (gather g l) := by
  induction l with
  | nil => exact agree_pure rfl
  | cons a l ih =>
    unfold gather
    refine (h a List.mem_cons_self).bind fun bs bs' hfirst => ?_
    refine (ih fun a' ha' => h a' (List.mem_cons_of_mem a ha')).bind fun others others' hothers => ?_
    exact agree_pure (by rw [List.map_append, List.map_append, hfirst, hothers])

theorem agree_gather_eq {f g : α → Draft (List β)} {l : List α}
    (h : ∀ a ∈ l, Agree Eq (f a) (g a)) : Agree Eq (gather f l) (gather g l) := by
  have hid := agree_gather (F := id) (f := f) (g := g) (l := l) fun a ha bs bs' hbs hbs' => by
    rw [h a ha bs bs' hbs hbs']
  exact fun bs bs' hbs hbs' => by simpa using hid bs bs' hbs hbs'

end Draft

namespace Schema

variable {g : Schema} {t u : TableName}

theorem keyColumn_congr (h : t.same u) {k : String} (hk : g.keyColumn t = .ok k) :
    g.keyColumn u = .ok k := by
  rw [keyColumn_eq_ok] at hk ⊢
  rw [← key?_congr h, hk]

end Schema

namespace Setting

variable {s : Setting} {t t' : TableName}

open Draft

/-! ## The parts of a body -/

/-- **The classifier means tables, not their spellings**: it says one thing of a
link between two tables, however these are spelled. Names in two spellings are
equal names of one table, so a classifier has no means to tell them apart unless
it looks into their text; one that looks up records does not
(`IsClear.meansTables`). -/
def MeansTables (s : Setting) : Prop :=
  ∀ owned owned' owner owner' link kind, owned.same owned' → owner.same owner' →
    s.classifier owned owner (some link) = .ok kind →
      s.classifier owned' owner' (some link) = .ok kind

/-- A clear classifier means tables, and so does one of records. -/
theorem IsClear.meansTables (h : s.IsClear) : s.MeansTables :=
  fun _ _ _ _ link _ howned howner heq => h _ _ _ _ (classifies_of_eq heq) _ _ link
    (TableName.same_symm howned) (TableName.same_symm howner) (sameName_refl link)

theorem MeansTables.eq_of_same (h : s.MeansTables) {owned owned' owner owner' : TableName}
    {link : String} {kind kind' : Relation} (howned : owned.same owned')
    (howner : owner.same owner')
    (heq : s.classifier owned owner (some link) = .ok kind)
    (heq' : s.classifier owned' owner' (some link) = .ok kind') : kind = kind' := by
  rw [h _ _ _ _ _ _ howned howner heq, Except.ok.injEq] at heq'
  exact heq'

theorem agree_classify (hmeans : s.MeansTables) (r : Reference)
    {owned owned' owner owner' : TableName} (howned : owned.same owned')
    (howner : owner.same owner') :
    Agree Eq (s.classify t r owned owner) (s.classify t' r owned' owner') :=
  fun _ _ hkind hkind' => hmeans.eq_of_same howned howner (outcome_classify.1 hkind)
    (outcome_classify.1 hkind')

theorem agree_classifyBridge (hmeans : s.MeansTables) (ht : t.same t') (b : Bridge)
    (owned : TableName) :
    Agree Eq (s.classifyBridge t b owned t) (s.classifyBridge t' b owned t') :=
  fun _ _ hkind hkind' => hmeans.eq_of_same (TableName.same_refl _) ht
    (outcome_classifyBridge.1 hkind) (outcome_classifyBridge.1 hkind')

/-- Blocks are alike by table. -/
def Alike (bs bs' : List (Block TableName)) : Prop :=
  bs.map (·.byTable id) = bs'.map (·.byTable id)

theorem agree_selfPart (hmeans : s.MeansTables) (ht : t.same t') (r : Reference) :
    Agree Alike (s.selfPart t r) (s.selfPart t' r) := by
  intro bs bs' hbs hbs'
  obtain ⟨kind, hkind, rfl⟩ := selfPart_eq_ok hbs
  obtain ⟨kind', hkind', rfl⟩ := selfPart_eq_ok hbs'
  obtain rfl := hmeans.eq_of_same ht ht hkind hkind'
  unfold Alike
  split
  · simp [Block.byTable, Block.map, TableName.plain_eq_iff, ht]
  · rfl

theorem agree_child (hmeans : s.MeansTables) (ht : t.same t') (r : Reference) :
    Agree Eq (s.child t r) (s.child t' r) := by
  unfold child
  exact (agree_classify hmeans r (TableName.same_refl _) ht).bind_eq
    fun kind => agree_self (fun _ => rfl) _

theorem agree_bridge (hmeans : s.MeansTables) (ht : t.same t') (b : Bridge) :
    Agree Eq (s.bridge t b) (s.bridge t' b) := by
  unfold bridge
  exact (agree_classifyBridge hmeans ht b b.farTable).bind_eq
    fun kind => agree_self (fun _ => rfl) _

theorem agree_entering (hmeans : s.MeansTables) (ht : t.same t') (i : Incoming) :
    Agree Eq (s.entering t i) (s.entering t' i) := by
  unfold entering
  split
  · exact agree_pure rfl
  · split
    · exact agree_bridge hmeans ht _
    · exact (agree_self (fun _ => rfl) _).bind_eq fun _ => agree_child hmeans ht i.reference
    · exact agree_child hmeans ht i.reference

/-- The supertype at the top is the same for all spellings of a table. -/
theorem same_of_topmost {g : Schema} {seen seen' : List TableName} {u u' : TableName}
    (hseen : ∀ v : TableName, v.isIn seen = v.isIn seen') (ht : t.same t')
    (h : topmost g seen t = .ok u) (h' : topmost g seen' t' = .ok u') : u.same u' := by
  induction seen, t using topmost.induct g generalizing seen' t' with
  | case1 seen t e hlink =>
    rw [topmost] at h
    split at h <;> rename_i hlink' <;> rw [hlink] at hlink' <;> cases hlink'
    cases h
  | case2 seen t hlink =>
    rw [topmost_eq, hlink] at h
    rw [topmost_eq, Schema.parentLink_congr ht hlink] at h'
    cases h
    cases h'
    exact ht
  | case3 seen t r hlink hold =>
    rw [topmost_eq, hlink] at h
    rw [topmost_eq, Schema.parentLink_congr ht hlink] at h'
    dsimp only at h h'
    rw [if_pos hold] at h
    rw [if_pos (hseen r.parent ▸ hold)] at h'
    cases h
    cases h'
    exact ht
  | case4 seen t r hlink hnew ih =>
    rw [topmost_eq, hlink] at h
    rw [topmost_eq, Schema.parentLink_congr ht hlink] at h'
    dsimp only at h h'
    rw [if_neg hnew] at h
    rw [if_neg (hseen r.parent ▸ hnew)] at h'
    refine ih (fun v => ?_) (TableName.same_refl _) h h'
    simp only [TableName.isIn, List.any_cons] at hseen ⊢
    rw [hseen]

theorem agree_findDiscriminator (ht : t.same t') :
    Agree (fun p p' => p.plain = p'.plain) (s.findDiscriminator t) (s.findDiscriminator t') := by
  intro p p' hp hp'
  obtain ⟨htop, hkey, hcolumn⟩ := findDiscriminator_eq_ok hp
  obtain ⟨htop', hkey', hcolumn'⟩ := findDiscriminator_eq_ok hp'
  have hsame : p.table.same p'.table := same_of_topmost
    (fun v => by simp [TableName.isIn, TableName.same_congr_right ht]) ht htop htop'
  rw [Schema.key?_congr hsame, hkey', Option.some.injEq] at hkey
  simp only [Discriminator.plain, TableName.plain_eq_iff.2 hsame, hkey, hcolumn, hcolumn']

theorem agree_dispatch (ht : t.same t') (subtypes : List TableName) :
    Agree Alike (s.dispatch t subtypes) (s.dispatch t' subtypes) := by
  unfold dispatch
  split
  · exact agree_pure rfl
  · refine (agree_ask fun _ h => Schema.classMap_congr ht ▸ h).bind_eq fun classes => ?_
    refine (agree_self (fun _ => rfl) _).bind_eq fun _ => ?_
    dsimp only
    split
    · exact agree_self (R := Alike) (fun _ => rfl) _
    · refine ((agree_findDiscriminator ht).map (f := some) (g := some)
        (Q := fun d d' => d.map Discriminator.plain = d'.map Discriminator.plain)
        fun p p' hplain => congrArg some hplain).bind fun d d' hplain => agree_pure ?_
      simp [Alike, Block.byTable, Block.map, hplain]

theorem agree_ownedTarget (hmeans : s.MeansTables) (ht : t.same t') (r : Reference) :
    Agree Eq (s.ownedTarget t r) (s.ownedTarget t' r) := by
  unfold ownedTarget
  exact (agree_classify hmeans r (TableName.same_refl _) ht).bind_eq
    fun kind => agree_self (fun _ => rfl) _

theorem agree_parentBlock (ht : t.same t') : Agree Eq (s.parentBlock t) (s.parentBlock t') := by
  unfold parentBlock
  exact (agree_ask fun _ => Schema.parentLink_congr ht).bind_eq
    fun link => agree_self (fun _ => rfl) _

/-! ## The whole body -/

theorem agree_body (hmeans : s.MeansTables) (ht : t.same t') :
    Agree Alike (s.body t) (s.body t') := by
  unfold body
  refine (agree_ask fun _ => Schema.selfReferences_congr ht).bind_eq fun selfs => ?_
  refine (agree_gather fun r _ => agree_selfPart hmeans ht r).bind fun parts parts' hparts => ?_
  refine (agree_ask fun _ => Schema.incoming_congr ht).bind_eq fun is => ?_
  refine (agree_gather_eq fun i _ => agree_entering hmeans ht i).bind_eq fun children => ?_
  refine (agree_dispatch ht (keyChildren is)).bind fun subtypes subtypes' hsubtypes => ?_
  refine (agree_ask fun _ => Schema.referenced_congr ht).bind_eq fun rs => ?_
  refine (agree_gather_eq fun r _ => agree_ownedTarget hmeans ht r).bind_eq fun targets => ?_
  refine (agree_parentBlock ht).bind_eq fun parent => agree_pure ?_
  unfold Alike at hsubtypes ⊢
  simp only [List.map_append, hparts, hsubtypes]

/-- **The key column and the body of a table do not depend on its spelling.** -/
theorem agree_draft (hmeans : s.MeansTables) (ht : t.same t') :
    Agree (fun d d' => d.1 = d'.1 ∧ Alike d.2 d'.2) (s.draft t) (s.draft t') := by
  unfold draft
  refine (agree_ask fun _ => Schema.keyColumn_congr ht).bind_eq fun k => ?_
  exact (agree_body hmeans ht).bind fun bs bs' hbs => agree_pure ⟨rfl, hbs⟩

end Setting

end DeleteCascade
