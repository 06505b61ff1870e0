import DeleteCascade.Proofs.Script.Words
import DeleteCascade.Script.Postgres
/-!
# Scripts — what the blocks of a function name

The text of a block for PostgreSQL is put together of fixed texts, names of the
schema and of functions, and local variables. `Composed` is the way in which
they may follow each other; every emitter keeps to it, and so the words of a
block's text name the variables of `used` and no others (`finished_block`),
unless something in the schema is called like a variable (`namesIn`).
-/

namespace DeleteCascade

namespace Postgres

/-! ## What a block may name -/

/-- The variables that a block uses. -/
def used : Block Callee → List Variable
  | .selfParts _ => [.candidateIds, .deletedChildIds]
  | .childCascade b => if b.detach || b.ownerCheck.isSome then [.candidateIds] else []
  | .bridgeCascade b => if b.callee.isSome then [.candidateIds] else []
  | .subtypeDispatch b =>
    if b.discriminator.isSome && !b.cases.isEmpty then [.record, .dummyIds, .deletedIds] else []
  | .localDelete captured => .deletedIds :: (List.range captured.length).map .refIds
  | .referencedCleanup b => [.refIds b.slot]
  | .parentCascade _ => [.deletedIds]

/-- The names that tell an owner. -/
def ownerNames (ctx : ScriptContext) : Owner → List String
  | .ownColumn column => [column]
  | .referencing table column => [ctx.tableText table, column]

/-- The names in a test that rows of a table have no owner. -/
def checkNames (ctx : ScriptContext) (table : TableName) (keyColumn : String)
    (owners : Option (List Owner)) : List String :=
  ctx.tableText table :: keyColumn :: (owners.getD []).flatMap (ownerNames ctx)

/-- The names that the text of a block takes from the schema and from the
functions it calls. -/
def namesIn (ctx : ScriptContext) (f : DeleteFunction) : Block Callee → List String
  | .selfParts b =>
    [ctx.tableText f.table, f.keyColumn, b.column, (spelling ctx).function b.callee.function]
  | .childCascade b =>
    b.column :: (spelling ctx).function b.callee.function ::
      checkNames ctx b.child b.childKey b.ownerCheck
  | .bridgeCascade b =>
    [ctx.tableText b.bridge, b.nearColumn, b.farColumn] ++
      b.callee.toList.map (fun c => (spelling ctx).function c.function) ++
      checkNames ctx b.target b.targetKey b.ownerCheck
  | .subtypeDispatch b =>
    b.discriminator.toList.flatMap (fun d => [ctx.tableText d.table, d.keyColumn, d.column]) ++
      b.cases.map (fun c => (spelling ctx).function c.callee.function) ++
      b.hooks.map fun h => (spelling ctx).function h.function
  | .localDelete captured => ctx.tableText f.table :: f.keyColumn :: captured
  | .referencedCleanup b =>
    b.column :: (spelling ctx).function b.callee.function ::
      checkNames ctx b.target b.targetKey b.ownerCheck
  | .parentCascade callee =>
    [ctx.tableText callee.table, (spelling ctx).function callee.function]

/-! ## How the texts are put together -/

/-- A text of fixed words with names in it. -/
inductive Phrase (names : List String) : String → Prop
  | literal {cs : List Char}
      (h : ((words cs).all (!isVariableLike ·) && cs.getLast?.all (!isWordChar ·)) = true) :
      Phrase names (String.ofList cs)
  | shown {a : String} (h : Phrase names a) : Phrase names (toString a)
  | around {a n c : String} (ha : Phrase names a) (hn : n ∈ names) (hstart : StartsApart c)
      (hc : Phrase names c) : Phrase names (a ++ toString n ++ toString c)
  /-- Any other text that names nothing. -/
  | other {a : String} (h : Finished [] [] a) : Phrase names a

/-- **How the parts of a text follow each other**: fixed texts with names in
them, and variables and tables that are held apart from what follows. The first
parts decide which rule applies, so that a text can be put together rule by
rule. -/
inductive Composed (ctx : ScriptContext) (vs : List Variable) (names : List String) :
    List Sql → Prop
  | nil : Composed ctx vs names []
  | text {s : String} {parts : List Sql} (h : Phrase names s)
      (hrest : Composed ctx vs names parts) : Composed ctx vs names (.text s :: parts)
  | var {v : Variable} {s : String} {parts : List Sql} (h : v ∈ vs) (hstart : StartsApart s)
      (hrest : Composed ctx vs names (.text s :: parts)) :
      Composed ctx vs names (.var v :: .text s :: parts)
  | table {t : TableName} {s : String} {parts : List Sql} (h : ctx.tableText t ∈ names)
      (hstart : StartsApart s) (hrest : Composed ctx vs names (.text s :: parts)) :
      Composed ctx vs names (.table t :: .text s :: parts)
  | callWith {function : String} {v : Variable} {caller : Caller} {parts : List Sql}
      (h : (spelling ctx).function function ∈ names) (hv : v ∈ vs)
      (hrest : Composed ctx vs names parts) :
      Composed ctx vs names (.call function (.var v) caller :: parts)
  | callOn {function : String} {ids parts : List Sql} {caller : Caller}
      (h : (spelling ctx).function function ∈ names) (hids : Composed ctx vs names ids)
      (hrest : Composed ctx vs names parts) :
      Composed ctx vs names (.call function (.concat ids) caller :: parts)
  | guarded {guards : List Guard} {body parts : List Sql}
      (h : ∀ v ∈ Sql.guardVariables guards, v ∈ vs) (hbody : Composed ctx vs names body)
      (hrest : Composed ctx vs names parts) :
      Composed ctx vs names (.guarded 2 guards (.concat body) :: parts)
  /-- Any other text that names nothing else. -/
  | part {part : Sql} {parts : List Sql} (h : Finished vs names ((spelling ctx).render part))
      (hrest : Composed ctx vs names parts) : Composed ctx vs names (part :: parts)
  /-- Texts that each begin apart may be listed after a word. -/
  | listed {part list : Sql} {texts : List String} {s : String} {parts : List Sql}
      (h : NamesOnly vs names ((spelling ctx).render part))
      (hlist : (spelling ctx).render list = String.join texts)
      (htexts : ∀ t ∈ texts, NamesOnly vs names t ∧ StartsApart t) (hstart : StartsApart s)
      (hrest : Composed ctx vs names (.text s :: parts)) :
      Composed ctx vs names (part :: list :: .text s :: parts)

section Emitted

/-! ### Conditions and calls -/

variable {vs : List Variable} {names : List String} {ctx : ScriptContext} {ids v : Variable}
variable {table t : TableName} {keyColumn function s : String} {body argument : Sql}
variable {ownerCheck : Option (List Owner)} {callee : Callee}
variable {guards : List Guard} {parts : List Sql} {f : DeleteFunction}

theorem namesOnly_guard {g : Guard} (h : ∀ v ∈ Sql.guardVariables [g], v ∈ vs) :
    NamesOnly vs names ((spelling ctx).guard g) := by
  cases g with
  | callerIsNot caller =>
    have hcaller : Finished vs names "caller <> " := .literal (by decide)
    -- the number stands last, so the condition is not finished before what follows it
    exact hcaller.only.append (.nat caller.code) (Or.inl hcaller.ends)
  | notEmpty ids =>
    have hids : ids ∈ vs := h ids List.mem_cons_self
    have hopen : Finished vs names "array_length(" := .literal (by decide)
    have hclose : NamesOnly vs names ", 1) > 0" := .literal (by decide)
    have hstart : StartsApart ", 1) > 0" := .literal rfl
    exact (hopen.only.append (.var hids) (Or.inl hopen.ends)).append hclose (Or.inr hstart)

theorem mem_guardVariables : v ∈ Sql.guardVariables guards ↔ .notEmpty v ∈ guards := by
  induction guards with
  | nil => simp [Sql.guardVariables]
  | cons g guards ih => cases g <;> simp [Sql.guardVariables, ih]

theorem finished_guarded (h : ∀ v ∈ Sql.guardVariables guards, v ∈ vs)
    (hbody : Finished vs names ((spelling ctx).render body)) :
    Finished vs names ((spelling ctx).render (.guarded 2 guards body)) := by
  have hblanks : Finished vs names (Spelling.blanks 2) := .literal (by decide)
  have hif : Finished vs names "IF " := .literal (by decide)
  have hthen : Finished vs names " THEN\n" := .literal (by decide)
  have hend : Finished vs names "END IF;\n" := .literal (by decide)
  have hand : Finished vs names " AND " := .literal (by decide)
  have hguards : NamesOnly vs names (" AND ".intercalate (guards.map (spelling ctx).guard)) := by
    refine .intercalate (fun text htext => ?_) hand (.literal rfl)
    obtain ⟨g, hg, rfl⟩ := List.mem_map.1 htext
    refine namesOnly_guard fun v hv => h v ?_
    rw [mem_guardVariables] at hv ⊢
    rw [List.mem_singleton] at hv
    rwa [hv]
  have hopen := hblanks.append hif
  have htest := hopen.only.append hguards (Or.inl hopen.ends)
  exact (((Finished.after htest (.literal rfl) hthen).append hbody).append hblanks).append hend

theorem finished_call (caller : Caller) (h : (spelling ctx).function function ∈ names)
    (hargument : NamesOnly vs names ((spelling ctx).render argument)) :
    Finished vs names ((spelling ctx).render (.call function argument caller)) := by
  have hopen : Finished vs names "(" := .literal (by decide)
  have hcomma : Finished vs names ", " := .literal (by decide)
  have hclose : Finished vs names ")" := .literal (by decide)
  have hstart : StartsApart ")" := .literal rfl
  have hcode : Finished vs names s!", {caller.code})" :=
    .after (hcomma.only.append (.nat caller.code) (Or.inl hcomma.ends)) hstart hclose
  have hcomma' : StartsApart ", " := .literal rfl
  have hcall := Finished.after (.name h) (.literal rfl) hopen
  exact .after (hcall.only.append hargument (Or.inl hcall.ends)) ((hcomma'.append _).append _) hcode

/-! ### Texts by their rules -/

theorem Phrase.finished (h : Phrase names s) : Finished vs names s := by
  induction h with
  | literal h => exact .literal h
  | shown _ ih => exact ih
  | around _ hn hstart _ ha hc => exact .around ha hn hstart hc
  | other h => exact h.mono

/-- **A text put together by the rules** names what they let it name. -/
theorem Composed.finished (h : Composed ctx vs names parts) :
    Finished vs names ((spelling ctx).render (.concat parts)) := by
  induction h with
  | nil => exact .nil
  | text h _ ih => exact .cons h.finished ih
  | var h hstart _ ih => exact .cons_word (.var h) (.append hstart _) ih
  | table h hstart _ ih => exact .cons_word (.name h) (.append hstart _) ih
  | callWith h hv _ ih => exact .cons (finished_call _ h (.var hv)) ih
  | callOn h _ _ hids ih => exact .cons (finished_call _ h hids.only) ih
  | guarded h _ _ hbody ih => exact .cons (finished_guarded h hbody) ih
  | part h _ ih => exact .cons h ih
  | listed h hlist htexts hstart _ ih =>
    obtain ⟨hstarts, hfinished⟩ := Finished.join_append htexts (.append hstart _) ih
    rw [← hlist] at hstarts hfinished
    exact .after h hstarts hfinished

/-! ### Tests for owners -/

theorem finished_ownerTest {test : OwnerTest} (htable : ctx.tableText test.table ∈ names)
    (hkey : test.keyColumn ∈ names) (howner : ∀ n ∈ ownerNames ctx test.owner, n ∈ names) :
    Finished vs names ((spelling ctx).render (.noOwner test)) := by
  -- what is asked of a table's column, up to the id that it is compared with
  have hasked {table column : String} (ht : table ∈ names) (hc : column ∈ names) :
      NamesOnly vs names (s!"NOT EXISTS (SELECT 1 FROM {table} o WHERE o.{column} = " ++ "c.id") := by
    have hphrase : Phrase names s!"NOT EXISTS (SELECT 1 FROM {table} o WHERE o.{column} = " := by
      repeat' first | assumption | decide | with_reducible constructor
    have hbefore : Finished vs names _ := hphrase.finished
    have hid : NamesOnly vs names "c.id" := .literal (by decide)
    exact hbefore.only.append hid (Or.inl hbefore.ends)
  obtain ⟨t, keyColumn, column | ⟨other, column⟩⟩ := test
  · have hcolumn : column ∈ names := howner _ (by simp [ownerNames])
    have hspace : Finished vs names " " := .literal (by decide)
    have hset : Phrase names s!"AND o.{column} IS NOT NULL)" := by
      repeat' first | assumption | decide | with_reducible constructor
    exact (Finished.after (hasked htable hkey) (.literal rfl) hspace).append hset.finished
  · have hother : ctx.tableText other ∈ names := howner _ (by simp [ownerNames])
    have hcolumn : column ∈ names := howner _ (by simp [ownerNames])
    have hclose : Finished vs names ")" := .literal (by decide)
    exact .after (hasked hother hcolumn) (.literal rfl) hclose

/-- The ids that no owner holds any more. -/
theorem namesOnly_unowned (hids : ids ∈ vs)
    (hnames : ∀ n ∈ checkNames ctx table keyColumn ownerCheck, n ∈ names) :
    NamesOnly vs names ((spelling ctx).render (unowned table keyColumn ownerCheck ids)) := by
  have htable : ctx.tableText table ∈ names := hnames _ (by simp [checkNames])
  have hkey : keyColumn ∈ names := hnames _ (by simp [checkNames])
  unfold unowned
  split
  · exact .var hids
  · exact .var hids
  · rename_i owners hne
    have htests :
        Finished vs names ((spelling ctx).render (ownerTests table keyColumn owners)) := by
      refine .separated (fun part hpart => ?_) (.literal (by decide))
      obtain ⟨o, ho, rfl⟩ := List.mem_map.1 hpart
      refine finished_ownerTest htable hkey fun n hn => hnames n ?_
      simp only [checkNames, Option.getD_some, List.mem_cons, List.mem_flatMap]
      exact Or.inr (Or.inr ⟨o, ho, hn⟩)
    refine (Composed.finished ?_).only
    -- rule by rule; parts that have a fact of their own are assumed, fixed words are computed
    repeat' first | assumption | decide | with_reducible constructor

theorem finished_deleteUnowned (hids : ids ∈ vs)
    (hcallee : (spelling ctx).function callee.function ∈ names)
    (hnames : ∀ n ∈ checkNames ctx table keyColumn ownerCheck, n ∈ names) :
    Finished vs names
      ((spelling ctx).render (deleteUnowned table keyColumn ownerCheck ids callee)) := by
  have hguard : ∀ v ∈ Sql.guardVariables [.notEmpty ids], v ∈ vs := by
    simpa [Sql.guardVariables] using hids
  have hcall := finished_call .fromOwner hcallee (namesOnly_unowned hids hnames)
  refine finished_guarded hguard (Composed.finished ?_)
  repeat' first | assumption | decide | with_reducible constructor

/-! ### Blocks -/

theorem finished_selfParts {b : SelfParts Callee} (htable : ctx.tableText f.table ∈ names)
    (hkey : f.keyColumn ∈ names) (hcolumn : b.column ∈ names)
    (hcallee : (spelling ctx).function b.callee.function ∈ names)
    (hcandidates : .candidateIds ∈ vs) (hparts : .deletedChildIds ∈ vs) :
    Finished vs names ((spelling ctx).render (selfParts f b)) := by
  have hguard : ∀ v ∈ Sql.guardVariables [.notEmpty .candidateIds], v ∈ vs := by
    simpa [Sql.guardVariables] using hcandidates
  have hadd : Finished vs names ((spelling ctx).render addDeletedParts) := by
    refine Composed.finished ?_
    repeat' first | assumption | decide | with_reducible constructor
  unfold selfParts
  split
  · refine Composed.finished ?_
    repeat' first | assumption | decide | with_reducible constructor
  · refine Composed.finished ?_
    repeat' first | assumption | decide | with_reducible constructor

theorem finished_childCascade {b : ChildCascade Callee} (hcolumn : b.column ∈ names)
    (hcallee : (spelling ctx).function b.callee.function ∈ names)
    (hnames : ∀ n ∈ checkNames ctx b.child b.childKey b.ownerCheck, n ∈ names)
    (hcandidates : (b.detach || b.ownerCheck.isSome) = true → .candidateIds ∈ vs) :
    Finished vs names ((spelling ctx).render (childCascade b)) := by
  have htable : ctx.tableText b.child ∈ names := hnames _ (by simp [checkNames])
  have hkey : b.childKey ∈ names := hnames _ (by simp [checkNames])
  unfold childCascade
  cases hdetach : b.detach with
  | true =>
    have hids : .candidateIds ∈ vs := hcandidates (by simp [hdetach])
    have hdelete := finished_deleteUnowned hids hcallee hnames
    refine Composed.finished ?_
    repeat' first | assumption | decide | with_reducible constructor
  | false =>
    cases howner : b.ownerCheck.isSome with
    | true =>
      have hids : .candidateIds ∈ vs := hcandidates (by simp [howner])
      have hdelete := finished_deleteUnowned hids hcallee hnames
      refine Composed.finished ?_
      repeat' first | assumption | decide | with_reducible constructor
    | false =>
      refine Composed.finished ?_
      repeat' first | assumption | decide | with_reducible constructor

theorem finished_bridgeCascade {b : BridgeCascade Callee}
    (htable : ctx.tableText b.bridge ∈ names) (hnear : b.nearColumn ∈ names)
    (hfar : b.farColumn ∈ names)
    (hcallees : ∀ callee ∈ b.callee, (spelling ctx).function callee.function ∈ names)
    (hnames : ∀ n ∈ checkNames ctx b.target b.targetKey b.ownerCheck, n ∈ names)
    (hcandidates : b.callee.isSome = true → .candidateIds ∈ vs) :
    Finished vs names ((spelling ctx).render (bridgeCascade b)) := by
  have htarget : ctx.tableText b.target ∈ names := hnames _ (by simp [checkNames])
  unfold bridgeCascade
  cases hcalls : b.callee with
  | none =>
    refine Composed.finished ?_
    repeat' first | assumption | decide | with_reducible constructor
  | some callee =>
    have hids : .candidateIds ∈ vs := hcandidates (by simp [hcalls])
    have hdelete := finished_deleteUnowned hids (hcallees callee hcalls) hnames
    refine Composed.finished ?_
    repeat' first | assumption | decide | with_reducible constructor

theorem finished_referencedCleanup {b : ReferencedCleanup Callee} (hcolumn : b.column ∈ names)
    (hcallee : (spelling ctx).function b.callee.function ∈ names)
    (hnames : ∀ n ∈ checkNames ctx b.target b.targetKey b.ownerCheck, n ∈ names)
    (hids : .refIds b.slot ∈ vs) :
    Finished vs names ((spelling ctx).render (referencedCleanup b)) := by
  have htarget : ctx.tableText b.target ∈ names := hnames _ (by simp [checkNames])
  have hdelete := finished_deleteUnowned hids hcallee hnames
  refine Composed.finished ?_
  repeat' first | assumption | decide | with_reducible constructor

theorem finished_parentCascade (htable : ctx.tableText callee.table ∈ names)
    (hcallee : (spelling ctx).function callee.function ∈ names) (hids : .deletedIds ∈ vs) :
    Finished vs names ((spelling ctx).render (parentCascade callee)) := by
  have hguard : ∀ v ∈ Sql.guardVariables [.callerIsNot .fromParent, .notEmpty .deletedIds],
      v ∈ vs := by
    simpa [Sql.guardVariables] using hids
  refine Composed.finished ?_
  repeat' first | assumption | decide | with_reducible constructor

theorem finished_subtypeCase {c : SubtypeCase Callee}
    (hcallee : (spelling ctx).function c.callee.function ∈ names) (hrecord : .record ∈ vs)
    (hdummy : .dummyIds ∈ vs) :
    Finished vs names ((spelling ctx).render (subtypeCase c)) := by
  have hlist : NamesOnly [] [] (classList c.classes) := by
    refine .intercalate (fun text htext => ?_) (.literal (by decide)) (.literal rfl)
    obtain ⟨k, -, rfl⟩ := List.mem_map.1 htext
    exact .int k
  have hopen : Finished [] [] ".class_id IN (" := .literal (by decide)
  have hclose : Finished [] [] ") THEN\n" := .literal (by decide)
  have hclasses : Phrase names s!".class_id IN ({classList c.classes}) THEN\n" :=
    .other (.after (hopen.only.append hlist (Or.inl hopen.ends)) (.literal rfl) hclose)
  refine Composed.finished ?_
  repeat' first | assumption | decide | with_reducible constructor

theorem finished_typedDispatch {d : Discriminator} {cases : List (SubtypeCase Callee)}
    (htable : ctx.tableText d.table ∈ names) (hkey : d.keyColumn ∈ names)
    (hcolumn : d.column ∈ names)
    (hcallees : ∀ c ∈ cases, (spelling ctx).function c.callee.function ∈ names)
    (hrecord : .record ∈ vs) (hdummy : .dummyIds ∈ vs) (hdeleted : .deletedIds ∈ vs) :
    Finished vs names ((spelling ctx).render (typedDispatch d cases)) := by
  have hguard : ∀ v ∈ Sql.guardVariables [.callerIsNot .fromSubtype], v ∈ vs := by
    simp [Sql.guardVariables]
  have hcases : Finished vs names ((spelling ctx).render (.concat (cases.map subtypeCase))) := by
    refine .concat fun part hpart => ?_
    obtain ⟨c, hc, rfl⟩ := List.mem_map.1 hpart
    exact finished_subtypeCase (hcallees c hc) hrecord hdummy
  refine finished_guarded hguard (Composed.finished ?_)
  repeat' first | assumption | decide | with_reducible constructor

theorem finished_hook (hcallee : (spelling ctx).function callee.function ∈ names) :
    Finished vs names ((spelling ctx).render (hook callee)) := by
  have hids : NamesOnly vs names ((spelling ctx).render (.text "pid_array")) :=
    .literal (by decide)
  have hcall := finished_call .fromParent hcallee hids
  refine Composed.finished ?_
  repeat' first | assumption | decide | with_reducible constructor

theorem finished_subtypeDispatch {b : SubtypeDispatch Callee}
    (hnames : ∀ n ∈ namesIn ctx f (.subtypeDispatch b), n ∈ names)
    (hvariables : (b.discriminator.isSome && !b.cases.isEmpty) = true →
      .record ∈ vs ∧ .dummyIds ∈ vs ∧ .deletedIds ∈ vs) :
    Finished vs names ((spelling ctx).render (subtypeDispatch b)) := by
  have hhooks : Finished vs names ((spelling ctx).render (.concat (b.hooks.map hook))) := by
    refine .concat fun part hpart => ?_
    obtain ⟨callee, hcallee, rfl⟩ := List.mem_map.1 hpart
    refine finished_hook (hnames _ ?_)
    simp only [namesIn, List.mem_append, List.mem_map]
    exact Or.inr ⟨callee, hcallee, rfl⟩
  unfold subtypeDispatch
  split
  · rename_i d c rest hd hcases
    obtain ⟨hrecord, hdummy, hdeleted⟩ := hvariables (by simp [hd, hcases])
    have hdispatch : Finished vs names ((spelling ctx).render (typedDispatch d (c :: rest))) := by
      refine finished_typedDispatch (hnames _ ?_) (hnames _ ?_) (hnames _ ?_)
        (fun c hc => hnames _ ?_) hrecord hdummy hdeleted
      · simp [namesIn, hd]
      · simp [namesIn, hd]
      · simp [namesIn, hd]
      · simp only [namesIn, List.mem_append, List.mem_map, hcases]
        exact Or.inl (Or.inr ⟨c, hc, rfl⟩)
    refine Composed.finished ?_
    repeat' first | assumption | decide | with_reducible constructor
  · have hnone : Finished vs names ((spelling ctx).render .empty) := .empty
    refine Composed.finished ?_
    repeat' first | assumption | decide | with_reducible constructor

/-- How a captured column is handed out. -/
theorem namesOnly_returned {column : String} (h : column ∈ names) (slot : Nat) :
    NamesOnly vs names s!", t.{column} AS ref_{slot}" := by
  have hopen : Finished vs names ", t." := .literal (by decide)
  have has : Finished vs names " AS " := .literal (by decide)
  have hsplit : (" AS ref_" : String) = " AS " ++ "ref_" := by decide
  have hcolumn : Finished vs names (", t." ++ (column ++ " AS ")) :=
    hopen.append (.after (.name h) (.literal rfl) has)
  have hboth := hcolumn.only.append (.ref slot) (Or.inl hcolumn.ends)
  have htext : s!", t.{column} AS ref_{slot}" =
      ", t." ++ (column ++ " AS ") ++ ("ref_" ++ toString slot) := by
    change ", t." ++ column ++ " AS ref_" ++ toString slot = _
    rw [hsplit]
    simp only [String.append_assoc]
  rwa [htext]

/-- How the values of a captured column are put together. -/
theorem finished_gathered (slot : Nat) : Finished vs names
    s!",\n         array_agg(DISTINCT ref_{slot}) FILTER (WHERE ref_{slot} IS NOT NULL)" := by
  have hopen : Finished vs names ",\n         array_agg(DISTINCT " := .literal (by decide)
  have hmiddle : Finished vs names ") FILTER (WHERE " := .literal (by decide)
  have hclose : Finished vs names " IS NOT NULL)" := .literal (by decide)
  have href : NamesOnly vs names ("ref_" ++ toString slot) := .ref slot
  have hsecond := hmiddle.append (.after href (.literal rfl) hclose)
  have hmiddle' : StartsApart ") FILTER (WHERE " := .literal rfl
  have hall := hopen.append (.after href (hmiddle'.append _) hsecond)
  have hfirst' : (",\n         array_agg(DISTINCT ref_" : String) =
      ",\n         array_agg(DISTINCT " ++ "ref_" := by decide
  have hsecond' : (") FILTER (WHERE ref_" : String) = ") FILTER (WHERE " ++ "ref_" := by decide
  have htext :
      s!",\n         array_agg(DISTINCT ref_{slot}) FILTER (WHERE ref_{slot} IS NOT NULL)" =
      ",\n         array_agg(DISTINCT " ++ ("ref_" ++ toString slot ++
        (") FILTER (WHERE " ++ ("ref_" ++ toString slot ++ " IS NOT NULL)"))) := by
    change ",\n         array_agg(DISTINCT ref_" ++ toString slot ++ ") FILTER (WHERE ref_" ++
      toString slot ++ " IS NOT NULL)" = _
    rw [hfirst', hsecond']
    simp only [String.append_assoc]
  rwa [htext]

theorem finished_localDelete {captured : List String} (htable : ctx.tableText f.table ∈ names)
    (hkey : f.keyColumn ∈ names) (hcaptured : ∀ column ∈ captured, column ∈ names)
    (hdeleted : .deletedIds ∈ vs) (hslots : ∀ slot < captured.length, .refIds slot ∈ vs) :
    Finished vs names ((spelling ctx).render (localDelete f captured)) := by
  -- what is said of each captured column, in the three places where all are listed
  have hreturned {text : String × Nat → String} {rest : List Sql}
      (htexts : ∀ slot ∈ captured.zipIdx, NamesOnly vs names (text slot) ∧ StartsApart (text slot))
      (hrest : Composed ctx vs names (.text "\n" :: rest)) :
      Composed ctx vs names (.text s!"    RETURNING t.{f.keyColumn} AS id" ::
        .text (String.join (captured.zipIdx.map text)) :: .text "\n" :: rest) := by
    have hopen : Finished vs names "    RETURNING t." := .literal (by decide)
    have has : NamesOnly vs names " AS id" := .literal (by decide)
    have hreturning : NamesOnly vs names s!"    RETURNING t.{f.keyColumn} AS id" :=
      (hopen.only.append (.name hkey) (Or.inl hopen.ends)).append has (Or.inr (.literal rfl))
    exact .listed hreturning rfl (List.forall_mem_map.2 htexts) (.literal rfl) hrest
  have hgathered {text : String × Nat → String}
      (htexts : ∀ slot ∈ captured.zipIdx, Finished [] [] (text slot)) :
      Phrase names (String.join (captured.zipIdx.map text)) :=
    .other (.join (List.forall_mem_map.2 htexts))
  have hassigned {part : String × Nat → Sql} {rest : List Sql}
      (hparts : ∀ slot ∈ captured.zipIdx, (spelling ctx).render (part slot) =
        ", " ++ (Variable.refIds slot.2).name)
      (hrest : Composed ctx vs names (.text "\n" :: rest)) :
      Composed ctx vs names
        (.var .deletedIds :: .concat (captured.zipIdx.map part) :: .text "\n" :: rest) := by
    have hcomma : Finished vs names ", " := .literal (by decide)
    have hstart : StartsApart ", " := .literal rfl
    have hids : NamesOnly vs names ((spelling ctx).render (.var .deletedIds)) := .var hdeleted
    have hlist := Spelling.render_concat (spelling ctx) (captured.zipIdx.map part)
    rw [List.map_map] at hlist
    refine .listed hids hlist (List.forall_mem_map.2 fun slot hslot => ?_) (.literal rfl) hrest
    have hvar : NamesOnly vs names (Variable.refIds slot.2).name :=
      .var (hslots slot.2 (List.mem_zipIdx' hslot).1)
    rw [Function.comp_apply, hparts slot hslot]
    exact ⟨hcomma.only.append hvar (Or.inl hcomma.ends), hstart.append _⟩
  refine Composed.finished ?_
  repeat' first
    | assumption
    | decide
    | with_reducible refine hreturned ?_ ?_
    | with_reducible refine hgathered ?_
    | with_reducible refine hassigned ?_ ?_
    | with_reducible constructor
  · rintro ⟨column, slot⟩ hslot
    have hcolumn : column ∈ captured := List.fst_mem_of_mem_zipIdx hslot
    exact ⟨namesOnly_returned (hcaptured column hcolumn) slot,
      .append (.append (.append (.literal rfl) _) _) _⟩
  · rintro ⟨column, slot⟩ -
    exact finished_gathered slot
  · rintro ⟨column, slot⟩ -
    simp [Sql.concat, Spelling.render]

end Emitted

/-- **The text of a block names what the block uses**, and what has a name in
the schema. -/
theorem finished_block (ctx : ScriptContext) (f : DeleteFunction) (b : Block Callee) :
    Finished (used b) (namesIn ctx f b) ((spelling ctx).render (block f b)) := by
  cases b with
  | selfParts b =>
    exact finished_selfParts (by simp [namesIn]) (by simp [namesIn]) (by simp [namesIn])
      (by simp [namesIn]) (by simp [used]) (by simp [used])
  | childCascade b =>
    refine finished_childCascade (by simp [namesIn]) (by simp [namesIn]) (fun n hn => ?_) fun h => ?_
    · exact List.mem_cons_of_mem _ (List.mem_cons_of_mem _ hn)
    · simp [used, h]
  | bridgeCascade b =>
    refine finished_bridgeCascade (by simp [namesIn]) (by simp [namesIn]) (by simp [namesIn])
      (fun callee hcallee => ?_) (fun n hn => ?_) fun h => ?_
    · simp [namesIn, Option.mem_def.1 hcallee]
    · exact List.mem_append_right _ hn
    · simp [used, h]
  | subtypeDispatch b =>
    refine finished_subtypeDispatch (fun _ hn => hn) fun h => ?_
    simp [used, h]
  | localDelete captured =>
    refine finished_localDelete (by simp [namesIn]) (by simp [namesIn]) (fun column h => ?_)
      (by simp [used]) fun slot h => ?_
    · exact List.mem_cons_of_mem _ (List.mem_cons_of_mem _ h)
    · exact List.mem_cons_of_mem _ (List.mem_map_of_mem (List.mem_range.2 h))
  | referencedCleanup b =>
    refine finished_referencedCleanup (by simp [namesIn]) (by simp [namesIn]) (fun n hn => ?_)
      (by simp [used])
    exact List.mem_cons_of_mem _ (List.mem_cons_of_mem _ hn)
  | parentCascade callee =>
    exact finished_parentCascade (by simp [namesIn]) (by simp [namesIn]) (by simp [used])

/-- The text that a function ends with names what it answers with. -/
theorem finished_closing (ctx : ScriptContext) :
    Finished [.deletedIds, .deletedChildIds] [] ((spelling ctx).render closing) := by
  refine Composed.finished ?_
  repeat' first | assumption | decide | with_reducible constructor

end Postgres

end DeleteCascade
