import DeleteCascade.Proofs.Function.Respelled
import DeleteCascade.Proofs.Ownership.Respelled
import DeleteCascade.Proofs.Synthesis.Spelling
/-!
# Plans — two spellings of one body

What a table's function does is drafted alike from one schema in two spellings
(`Setting.Respelled.draft`): the drafts mention the same tables in the same
order and end alike. What they remark on is left out, since a remark quotes the
names it is about.
-/

namespace DeleteCascade

/-- Two errors of one kind, about the same tables. -/
inductive SynthesisError.SameKind : SynthesisError → SynthesisError → Prop
  | lookup {t t' : TableName} {cause cause' : LookupError} (tables : t.same t')
      (causes : cause.SameKind cause') : SameKind (.lookup t cause) (.lookup t' cause')
  | conflict {t t' : TableName} {link link' : String} {cause cause' : OwnershipConflict}
      (tables : t.same t') : SameKind (.conflict t link cause) (.conflict t' link' cause')
  | noDiscriminator {t t' : TableName} {column column' : String} (tables : t.same t') :
      SameKind (.noDiscriminator t column) (.noDiscriminator t' column')
  | names {cause cause' : NameOverflow} : SameKind (.names cause) (.names cause')

/-- Planned blocks that are the same up to spelling. -/
abbrev PlannedAlike : List (Block TableName) → List (Block TableName) → Prop :=
  List.Forall₂ (Block.Respelled fun u u' => u.same u')

/-- One setting in two spellings. -/
structure Setting.Respelled (s s' : Setting) : Prop where
  schema : s.schema.Respelled s'.schema
  classifier : s.classifier.Respelled s'.classifier
  discriminator : sameName s.discriminator s'.discriminator

/-- Owners that are listed side by side are the same owners when each is added
unless it is there: what is left out in one spelling is listed in another. -/
theorem SameOwners.of_forall₂ {own own' more more' : List Owner}
    (hown : List.Forall₂ Owner.Like own own') (hmore : List.Forall₂ Owner.Like more more') :
    SameOwners (more.foldl Setting.addOwner own) (more'.foldl Setting.addOwner own') := by
  -- owners are added by the letter, so the lists may come to differ in length
  have hall := List.rel_append hown hmore
  obtain ⟨hsub, hcover⟩ := Setting.foldl_addOwner more own
  obtain ⟨hsub', hcover'⟩ := Setting.foldl_addOwner more' own'
  constructor
  · intro o ho
    obtain ⟨o', ho', hlike⟩ := exists_of_forall₂ hall (hsub ho)
    obtain ⟨o'', ho'', hlike'⟩ := hcover' o' ho'
    exact ⟨o'', ho'', hlike.trans hlike'.symm⟩
  · intro o' ho'
    obtain ⟨o, ho, hlike⟩ := exists_of_forall₂ hall.flip (hsub' ho')
    obtain ⟨o'', ho'', hlike'⟩ := hcover o ho
    exact ⟨o'', ho'', hlike'.trans hlike⟩

namespace Draft

variable {α β γ δ : Type} {R : α → β → Prop} {Q : γ → δ → Prop}

/-- **Two drafts are parallel**: they mention the same tables and end alike. -/
structure Parallel (R : α → β → Prop) (d : Draft α) (d' : Draft β) : Prop where
  mentions : SameTables d.mentions d'.mentions
  outcome : EndAlike SynthesisError.SameKind R d.outcome d'.outcome

theorem parallel_ofExcept {x : Except SynthesisError α} {x' : Except SynthesisError β}
    (h : EndAlike SynthesisError.SameKind R x x') : Parallel R (ofExcept x) (ofExcept x') :=
  ⟨.nil, h⟩

theorem parallel_pure {a : α} {b : β} (h : R a b) : Parallel R (pure a) (pure b) :=
  parallel_ofExcept (.ok h)

theorem Parallel.bind {d : Draft α} {d' : Draft β} {f : α → Draft γ} {f' : β → Draft δ}
    (h : Parallel R d d') (hf : ∀ a b, R a b → Parallel Q (f a) (f' b)) :
    Parallel Q (d >>= f) (d' >>= f') := by
  obtain ⟨hmentions, houtcome⟩ := h
  change Parallel Q (d.andThen f) (d'.andThen f')
  unfold andThen
  generalize d.outcome = x, d'.outcome = x' at houtcome ⊢
  cases houtcome with
  | error he => exact ⟨hmentions, .error he⟩
  | ok hab =>
    have hnext := hf _ _ hab
    exact ⟨List.rel_append hmentions hnext.mentions, hnext.outcome⟩

theorem Parallel.map {d : Draft α} {d' : Draft β} {f : α → γ} {f' : β → δ} (h : Parallel R d d')
    (hf : ∀ a b, R a b → Q (f a) (f' b)) : Parallel Q (f <$> d) (f' <$> d') := by
  change Parallel Q (d >>= fun a => pure (f a)) (d' >>= fun b => pure (f' b))
  exact h.bind fun a b hab => parallel_pure (hf a b hab)

theorem parallel_mention {t t' : TableName} (ht : t.same t') :
    Parallel (fun u u' => u.same u') (mention t) (mention t') :=
  ⟨.cons ht .nil, .ok ht⟩

theorem parallel_note (text text' : String) : Parallel Eq (note text) (note text') :=
  ⟨.nil, .ok rfl⟩

theorem parallel_ask {t t' : TableName} (ht : t.same t') {x : Except LookupError α}
    {x' : Except LookupError β} (h : EndAlike LookupError.SameKind R x x') :
    Parallel R (ask t x) (ask t' x') :=
  parallel_ofExcept (h.mapError fun _ _ he => .lookup ht he)

/-- What is drafted item by item is parallel if it is for each item. -/
theorem parallel_gather {l : List α} {l' : List β} (h : List.Forall₂ R l l')
    {f : α → Draft (List γ)} {f' : β → Draft (List δ)}
    (hf : ∀ a b, R a b → Parallel (List.Forall₂ Q) (f a) (f' b)) :
    Parallel (List.Forall₂ Q) (gather f l) (gather f' l') := by
  induction h with
  | nil => exact parallel_pure .nil
  | cons hab _ ih =>
    unfold gather
    exact (hf _ _ hab).bind fun bs bs' hbs => ih.bind fun cs cs' hcs =>
      parallel_pure (List.rel_append hbs hcs)

end Draft

/-- A column may be NULL in both spellings or in none. -/
theorem Schema.Respelled.isNullable {g g' : Schema} (h : g.Respelled g') {t t' : TableName}
    (ht : t.same t') {c c' : String} (hc : sameName c c') :
    g.isNullable t c = g'.isNullable t' c' := by
  unfold Schema.isNullable
  with_reducible refine Option.Rel.casesOn (h.table? ht) (fun hd => ?_) rfl
  exact hd.isNullable hc

/-! ## Subtypes and supertypes -/

theorem SameTables.addTable {ts ts' : List TableName} (h : SameTables ts ts') {t t' : TableName}
    (ht : t.same t') : SameTables (Setting.addTable ts t) (Setting.addTable ts' t') := by
  unfold Setting.addTable
  rw [h.isIn ht]
  split
  · exact h
  · exact List.rel_append h (.cons ht .nil)

theorem sameTables_keyChildren {is is' : List Incoming}
    (h : List.Forall₂ Incoming.Respelled is is') :
    SameTables (Setting.keyChildren is) (Setting.keyChildren is') := by
  have hkeys := forall₂_filter h (p := (·.reference.childIsKey)) (q := (·.reference.childIsKey))
    fun _ _ hi => hi.reference.childIsKey
  exact List.rel_foldl (fun _ _ hts _ _ hi => hts.addTable hi.reference.child) .nil hkeys

section Topmost

variable {g g' : Schema} (h : g.Respelled g') {seen seen' : List TableName} {t t' : TableName}
variable (hseen : SameTables seen seen') (ht : t.same t')
include h hseen ht

/-- One step up to the supertype is the same in both schemas, if what follows it
is. -/
theorem Schema.Respelled.topmost_step
    (hnext : ∀ r r', g.parentLink t = .ok (some r) → r.parent.isIn seen = false → r.Respelled r' →
      EndAlike SynthesisError.SameKind (fun u u' => u.same u')
        (Setting.topmost g (r.parent :: seen) r.parent)
        (Setting.topmost g' (r'.parent :: seen') r'.parent)) :
    EndAlike SynthesisError.SameKind (fun u u' => u.same u') (Setting.topmost g seen t)
      (Setting.topmost g' seen' t') := by
  have hlinks := h.parentLink ht
  rw [Setting.topmost_eq, Setting.topmost_eq]
  generalize g.parentLink t = link, g'.parentLink t' = link' at hlinks hnext ⊢
  cases hlinks with
  | error he => exact .error (.lookup ht he)
  | ok hlink =>
    cases hlink with
    | none => exact .ok ht
    | @some r r' hr =>
      dsimp only
      rw [← hseen.isIn hr.parent]
      split
      · exact .ok ht
      · rename_i hnew
        exact hnext r r' rfl (by simpa using hnew) hr

/-- **The supertype at the top is found in both schemas.** -/
theorem Schema.Respelled.topmost :
    EndAlike SynthesisError.SameKind (fun u u' => u.same u') (Setting.topmost g seen t)
      (Setting.topmost g' seen' t') := by
  -- as with the walk down: `g` decides the case and `g'` follows
  induction seen, t using Setting.topmost.induct g generalizing seen' t' with
  | case1 seen t e hlink =>
    refine h.topmost_step hseen ht fun r r' hr => ?_
    rw [hlink] at hr
    cases hr
  | case2 seen t hlink =>
    refine h.topmost_step hseen ht fun r r' hr => ?_
    rw [hlink] at hr
    cases hr
  | case3 seen t r hlink hold =>
    refine h.topmost_step hseen ht fun r₁ r' hr hnew => ?_
    rw [hlink] at hr
    cases hr
    rw [hold] at hnew
    cases hnew
  | case4 seen t r hlink hnew ih =>
    refine h.topmost_step hseen ht fun r₁ r' hr _ hrr' => ?_
    rw [hlink] at hr
    cases hr
    exact ih (.cons hrr'.parent hseen) hrr'.parent

end Topmost

namespace Schema.ClassMap.Respelled

variable {m m' : ClassMap} (hm : ClassMap.Respelled m m') {ts ts' : List TableName}
variable (hts : SameTables ts ts')
include hm hts

theorem typedCases : List.Forall₂ (SubtypeCase.Respelled fun u u' => u.same u')
    (Setting.typedCases m ts) (Setting.typedCases m' ts') := by
  refine List.rel_filterMap (fun u u' hu => ?_) hts
  rw [hm.classesOf hu]
  split
  · exact .none
  · exact .some ⟨rfl, hu⟩

theorem untyped : SameTables (Setting.untyped m ts) (Setting.untyped m' ts') :=
  forall₂_filter hts fun _ _ hu => by rw [hm.classesOf hu]

end Schema.ClassMap.Respelled

namespace Setting.Respelled

open Draft

variable {s s' : Setting} (h : s.Respelled s') {t t' u u' : TableName} {r r' : Reference}
variable {b b' : Bridge} {i i' : Incoming} {kind : Relation}
include h

/-! ## Links -/

theorem classify (ht : t.same t') (hr : r.Respelled r') {owned owned' owner owner' : TableName}
    (howned : owned.same owned') (howner : owner.same owner') :
    Parallel Eq (s.classify t r owned owner) (s'.classify t' r' owned' owner') :=
  parallel_ofExcept ((h.classifier _ _ _ _ _ _ howned howner hr.childColumn).mapError
    fun _ _ _ => .conflict ht)

theorem classifyBridge (ht : t.same t') (hb : b.Respelled b')
    {owned owned' owner owner' : TableName} (howned : owned.same owned')
    (howner : owner.same owner') :
    Parallel Eq (s.classifyBridge t b owned owner) (s'.classifyBridge t' b' owned' owner') :=
  parallel_ofExcept ((h.classifier _ _ _ _ _ _ howned howner
    (TableName.sameName_of_same hb.table)).mapError fun _ _ _ => .conflict ht)

/-! ## Owners -/

theorem ownColumn (ht : t.same t') (hr : r.Respelled r') :
    Parallel (List.Forall₂ Owner.Like) (s.ownColumn t r) (s'.ownColumn t' r') := by
  unfold Setting.ownColumn
  refine (h.classify ht hr ht hr.parent).bind fun kind _ heq => ?_
  subst heq
  refine parallel_pure ?_
  split
  · exact .cons hr.childColumn .nil
  · exact .nil

theorem referencingOwner (ht : t.same t') (hi : i.Respelled i') :
    Parallel (List.Forall₂ Owner.Like) (s.referencingOwner t i) (s'.referencingOwner t' i') := by
  unfold Setting.referencingOwner
  obtain ⟨r, shape⟩ := i
  obtain ⟨r', shape'⟩ := i'
  obtain ⟨hr, hshape⟩ := hi
  have hchild : Parallel (List.Forall₂ Owner.Like)
      (do
        let kind ← s.classify t r t r.child
        return if kind.isOwning then [.referencing r.child r.childColumn] else [])
      (do
        let kind ← s'.classify t' r' t' r'.child
        return if kind.isOwning then [.referencing r'.child r'.childColumn] else []) := by
    refine (h.classify ht hr ht hr.child).bind fun kind _ heq => ?_
    subst heq
    refine parallel_pure ?_
    split
    · exact .cons ⟨hr.child, hr.childColumn⟩ .nil
    · exact .nil
  dsimp only at hr ⊢
  rw [hr.childIsKey]
  split
  · exact parallel_pure .nil
  · cases hshape with
    | plain => exact hchild
    | suspected => exact hchild
    | bridge hb =>
      refine (h.classifyBridge ht hb ht hb.farTable).bind fun kind _ heq => ?_
      subst heq
      refine parallel_pure ?_
      split
      · exact .cons ⟨hb.table, hb.nearColumn⟩ .nil
      · exact .nil

theorem ownerCheck (ht : t.same t') : Parallel SameOwners (s.ownerCheck t) (s'.ownerCheck t') := by
  unfold Setting.ownerCheck
  refine (parallel_ask ht (h.schema.referenced ht)).bind fun rs rs' hrs => ?_
  refine (parallel_ask ht (h.schema.selfReferences ht)).bind fun ss ss' hss => ?_
  refine (parallel_gather (List.rel_append hrs hss) fun r r' hr => h.ownColumn ht hr).bind
    fun own own' hown => ?_
  refine (parallel_ask ht (h.schema.incoming ht)).bind fun is is' his => ?_
  refine (parallel_gather his fun i i' hi => h.referencingOwner ht hi).bind
    fun more more' hmore => ?_
  exact parallel_pure (SameOwners.of_forall₂ hown hmore)

theorem ownerCheckFor (ht : t.same t') :
    Parallel (Option.Rel SameOwners) (s.ownerCheckFor kind t) (s'.ownerCheckFor kind t') := by
  unfold Setting.ownerCheckFor
  split
  · exact (h.ownerCheck ht).map fun _ _ hos => .some hos
  · exact parallel_pure .none

/-! ## Blocks -/

theorem selfPart (ht : t.same t') (hr : r.Respelled r') :
    Parallel PlannedAlike (s.selfPart t r) (s'.selfPart t' r') := by
  unfold Setting.selfPart
  refine (h.classify ht hr ht ht).bind fun kind _ heq => ?_
  subst heq
  have hblock : Parallel PlannedAlike
      (do let callee ← mention t; return [.selfParts ⟨r.childColumn, r'.nullable, callee⟩])
      (do let callee ← mention t'; return [.selfParts ⟨r'.childColumn, r'.nullable, callee⟩]) :=
    (parallel_mention ht).bind fun c c' hc =>
      parallel_pure (.cons (.selfParts ⟨hr.childColumn, rfl, hc⟩) .nil)
  rw [hr.nullable]
  split
  · dsimp only
    split
    · exact hblock
    · exact (parallel_note _ _).bind fun _ _ _ => hblock
  · exact parallel_pure .nil

theorem child (ht : t.same t') (hr : r.Respelled r') :
    Parallel PlannedAlike (s.child t r) (s'.child t' r') := by
  unfold Setting.child
  refine (h.classify ht hr hr.child ht).bind fun kind _ heq => ?_
  subst heq
  split
  · have hblock (check check' : Option (List Owner)) (hcheck : Option.Rel SameOwners check check') :
        Parallel PlannedAlike
          (do
            let childKey ← ask r.child (s.schema.keyColumn r.child)
            let callee ← mention r.child
            return [.childCascade ⟨r.child, childKey, r.childColumn,
              kind = .aggregation ∧ r.nullable, check, callee⟩])
          (do
            let childKey ← ask r'.child (s'.schema.keyColumn r'.child)
            let callee ← mention r'.child
            return [.childCascade ⟨r'.child, childKey, r'.childColumn,
              kind = .aggregation ∧ r'.nullable, check', callee⟩]) := by
      refine (parallel_ask hr.child (h.schema.keyColumn hr.child)).bind fun k k' hk => ?_
      refine (parallel_mention hr.child).bind fun c c' hc => parallel_pure (.cons ?_ .nil)
      exact .childCascade ⟨hr.child, hk, hr.childColumn, by rw [hr.nullable], hcheck, hc⟩
    dsimp only
    rw [hr.nullable] at hblock ⊢
    split
    · exact (h.ownerCheckFor hr.child).bind hblock
    · exact (parallel_pure .none).bind hblock
  · exact parallel_pure .nil

theorem bridge (ht : t.same t') (hb : b.Respelled b') :
    Parallel PlannedAlike (s.bridge t b) (s'.bridge t' b') := by
  unfold Setting.bridge
  refine (h.classifyBridge ht hb hb.farTable ht).bind fun kind _ heq => ?_
  subst heq
  refine (h.ownerCheckFor hb.farTable).bind fun check check' hcheck => ?_
  have hblock (c c' : Option TableName) (hc : Option.Rel (fun u u' => u.same u') c c') :
      PlannedAlike
        [.bridgeCascade ⟨b.table, b.nearColumn, b.farColumn, b.farTable, b.farKey, check, c⟩]
        [.bridgeCascade
          ⟨b'.table, b'.nearColumn, b'.farColumn, b'.farTable, b'.farKey, check', c'⟩] :=
    .cons (.bridgeCascade
      ⟨hb.table, hb.nearColumn, hb.farColumn, hb.farTable, hb.farKey, hcheck, hc⟩) .nil
  dsimp only
  split
  · exact ((parallel_mention hb.farTable).map fun _ _ hu => .some hu).bind fun c c' hc =>
      parallel_pure (hblock c c' hc)
  · exact (parallel_pure .none).bind fun c c' hc => parallel_pure (hblock c c' hc)

theorem entering (ht : t.same t') (hi : i.Respelled i') :
    Parallel PlannedAlike (s.entering t i) (s'.entering t' i') := by
  obtain ⟨r, shape⟩ := i
  obtain ⟨r', shape'⟩ := i'
  obtain ⟨hr, hshape⟩ := hi
  dsimp only at hr hshape
  unfold Setting.entering
  dsimp only
  rw [hr.childIsKey]
  split
  · exact parallel_pure .nil
  · cases hshape with
    | plain => exact h.child ht hr
    | bridge hb => exact h.bridge ht hb
    | suspected => exact (parallel_note _ _).bind fun _ _ _ => h.child ht hr

theorem findDiscriminator (ht : t.same t') : Parallel Discriminator.Respelled
    (s.findDiscriminator t) (s'.findDiscriminator t') := by
  unfold Setting.findDiscriminator
  refine (parallel_ofExcept (h.schema.topmost (.cons ht .nil) ht)).bind fun u u' hu => ?_
  refine (parallel_ask hu (h.schema.hasColumn hu h.discriminator)).bind fun known _ heq => ?_
  subst heq
  split
  · refine (parallel_ask hu (h.schema.keyColumn hu)).bind fun k k' hk => ?_
    exact parallel_pure ⟨hu, hk, h.discriminator⟩
  · exact parallel_ofExcept (.error (.noDiscriminator hu))

theorem dispatch (ht : t.same t') {ts ts' : List TableName} (hts : SameTables ts ts') :
    Parallel PlannedAlike (s.dispatch t ts) (s'.dispatch t' ts') := by
  unfold Setting.dispatch
  rw [forall₂_isEmpty hts]
  split
  · exact parallel_pure .nil
  · refine (parallel_ask ht (h.schema.classMap ht)).bind fun m m' hm => ?_
    have hmentions : Parallel SameTables (gather (fun u => List.singleton <$> mention u) ts)
        (gather (fun u => List.singleton <$> mention u) ts') :=
      parallel_gather hts fun u u' hu => (parallel_mention hu).map fun _ _ hc => .cons hc .nil
    refine hmentions.bind fun _ _ _ => ?_
    have hblock (d d' : Option Discriminator) (hd : Option.Rel Discriminator.Respelled d d') :
        PlannedAlike [.subtypeDispatch ⟨d, typedCases m ts, untyped m ts⟩]
          [.subtypeDispatch ⟨d', typedCases m' ts', untyped m' ts'⟩] :=
      .cons (.subtypeDispatch ⟨hd, hm.typedCases hts, hm.untyped hts⟩) .nil
    dsimp only
    rw [forall₂_isEmpty (hm.typedCases hts)]
    split
    · exact (parallel_pure .none).bind fun d d' hd => parallel_pure (hblock d d' hd)
    · exact ((h.findDiscriminator ht).map fun _ _ hd => .some hd).bind fun d d' hd =>
        parallel_pure (hblock d d' hd)

theorem ownedTarget (ht : t.same t') (hr : r.Respelled r') :
    Parallel (List.Forall₂ fun x x' => x.1.Respelled x'.1 ∧ Option.Rel SameOwners x.2 x'.2)
      (s.ownedTarget t r) (s'.ownedTarget t' r') := by
  unfold Setting.ownedTarget
  refine (h.classify ht hr hr.parent ht).bind fun kind _ heq => ?_
  subst heq
  split
  · refine (h.ownerCheckFor hr.parent).bind fun check check' hcheck => ?_
    exact (parallel_mention hr.parent).bind fun _ _ _ =>
      parallel_pure (.cons ⟨hr, hcheck⟩ .nil)
  · exact parallel_pure .nil

theorem parentBlock (ht : t.same t') :
    Parallel PlannedAlike (s.parentBlock t) (s'.parentBlock t') := by
  unfold Setting.parentBlock
  refine (parallel_ask ht (h.schema.parentLink ht)).bind fun link link' hlink => ?_
  cases hlink with
  | none => exact parallel_pure .nil
  | some hr =>
    exact (parallel_mention hr.parent).bind fun c c' hc =>
      parallel_pure (.cons (.parentCascade hc) .nil)

/-! ## The whole body -/

theorem body (ht : t.same t') : Parallel PlannedAlike (s.body t) (s'.body t') := by
  unfold Setting.body
  refine (parallel_ask ht (h.schema.selfReferences ht)).bind fun ss ss' hss => ?_
  refine (parallel_gather hss fun r r' hr => h.selfPart ht hr).bind fun parts parts' hparts => ?_
  refine (parallel_ask ht (h.schema.incoming ht)).bind fun is is' his => ?_
  refine (parallel_gather his fun i i' hi => h.entering ht hi).bind fun bs bs' hbs => ?_
  refine (h.dispatch ht (sameTables_keyChildren his)).bind fun ds ds' hds => ?_
  refine (parallel_ask ht (h.schema.referenced ht)).bind fun rs rs' hrs => ?_
  refine (parallel_gather hrs fun r r' hr => h.ownedTarget ht hr).bind fun xs xs' hxs => ?_
  refine (h.parentBlock ht).bind fun ps ps' hps => parallel_pure ?_
  have hlocal : PlannedAlike [.localDelete (xs.map (·.1.childColumn))]
      [.localDelete (xs'.map (·.1.childColumn))] :=
    .cons (.localDelete (List.rel_map (fun _ _ hx => hx.1.childColumn) hxs)) .nil
  have hcleanups : PlannedAlike (cleanups xs) (cleanups xs') :=
    forall₂_mapIdx hxs fun _ _ _ hx => .referencedCleanup
      ⟨hx.1.childColumn, rfl, hx.1.parent, hx.1.parentColumn, hx.2, hx.1.parent⟩
  exact List.rel_append (List.rel_append (List.rel_append (List.rel_append
    (List.rel_append hparts hbs) hds) hlocal) hcleanups) hps

/-- **A body is drafted alike in both spellings.** -/
theorem draft (ht : t.same t') :
    Parallel (fun x x' => sameName x.1 x'.1 ∧ PlannedAlike x.2 x'.2) (s.draft t) (s'.draft t') := by
  unfold Setting.draft
  refine (parallel_ask ht (h.schema.keyColumn ht)).bind fun k k' hk => ?_
  exact (h.body ht).bind fun bs bs' hbs => parallel_pure ⟨hk, hbs⟩

end Setting.Respelled

end DeleteCascade
