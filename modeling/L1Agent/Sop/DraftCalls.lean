import L1Agent.Sop.Drafting

/-! # What the programs of the store do

Each statement comes after others of its program.  `Allowed` says of a statement what has been
done and answered before: a version is looked up and inserted while none has been inserted in the
transaction, `create_draft` returns `none` only after it has found the revision or an index has
refused a row, and a sync puts its cursor on record after it has treated every article.

`serve_follows` is for every program of the store, by the rules for programs; the invariants of
`Sop/Imported.lean` rest on it.
-/
namespace L1Agent
namespace Drafting
open Interleaving Transactions

/-! ## What a call has done -/

/-- A call of `create_draft` ends here. -/
def Op.returns (o : Op) : Bool :=
  match o.statement with
  | .returned _ => true
  | _ => false

/-- What has been done since `create_draft` last returned. -/
def current (past : List Statements.Done) : List Statements.Done :=
  past.foldl (fun cur x => if x.op.returns then [] else cur ++ [x]) []

/-- The thread's transaction has inserted a version. -/
def inserting (past : List Statements.Done) : Bool :=
  past.foldl (fun inserted x => match x.op.statement with
    | .insertVersion _ => true
    | .commit | .rollback => false
    | _ => inserted) false

theorem current_snoc (past : List Statements.Done) (x : Statements.Done) :
    current (past ++ [x]) = if x.op.returns then [] else current past ++ [x] := by
  simp only [current, List.foldl_append, List.foldl_cons, List.foldl_nil]

theorem inserting_snoc (past : List Statements.Done) (x : Statements.Done) :
    inserting (past ++ [x]) = match x.op.statement with
      | .insertVersion _ => true
      | .commit | .rollback => false
      | _ => inserting past := by
  simp only [inserting, List.foldl_append, List.foldl_cons, List.foldl_nil]

/-- The version was found. -/
def found (d : Draft) (source : Source) : Statements.Done :=
  ⟨⟨.create d, .seen source⟩, (.ok true : Except Exn Bool)⟩

/-- The call has returned. -/
def left (d : Draft) (created : Option Nat) : Statements.Done :=
  ⟨⟨.create d, .returned created⟩, (.ok () : Except Exn Unit)⟩

/-- The source has answered. -/
def answered (sourceId actor since : String) (articles : List Article) (cursor : String) :
    Statements.Done :=
  ⟨⟨.sync sourceId actor, .changedSince since⟩,
    (.ok (articles, cursor) : Except Exn (List Article × String))⟩

/-- A statement of the call has met an index. -/
def Refused (d : Draft) (past : List Statements.Done) : Prop :=
  ∃ x ∈ current past, x.op.request = .create d ∧ x.answer = .error .integrity

/-- The article is a draft, is one already, or is on record with an error. -/
def Treated (sourceId : String) (errors : List String) (past : List Statements.Done)
    (article : Article) : Prop :=
  (∃ d created, d.source = some ⟨sourceId, article.id, article.revision⟩ ∧
    left d created ∈ past) ∨ ∃ message, article.id ++ ": " ++ message ∈ errors

/-- **What the programs do** after what they have done. -/
def Allowed (past : List Statements.Done) (o : Op) : Prop :=
  match o.request, o.statement with
  | _, .seen _ => inserting past = false
  | request, .insertVersion row => inserting past = false ∧
      ∃ d versionId sopId data, request = .create d ∧ row = d.row versionId sopId data
  | .create d, .returned none =>
      ∀ source, d.source = some source → Refused d past ∨ found d source ∈ current past
  | .sync sourceId actor, .record _ result (some cursor) =>
      ∃ since articles, answered sourceId actor since articles cursor ∈ past ∧
        ∀ article ∈ articles, Treated sourceId result.errors past article
  | _, _ => True

/-! ## One call of `create_draft` -/

section
variable {α β : Type} {tools : Tools} {d : Draft} {past : List Statements.Done}

theorem follows_execute {request : Request} {st : Statement}
    {Q : List Statements.Done → Except Exn st.Val → Prop} (hallowed : Allowed past ⟨request, st⟩)
    (h : ∀ x : Except Exn st.Val, Q (past ++ [⟨⟨request, st⟩, x⟩]) x) :
    (execute request st).Follows Allowed past Q := by
  refine ⟨hallowed, fun x => ?_⟩
  cases x with
  | ok value => exact h (.ok value)
  | error e => exact h (.error e)

/-- An IntegrityError is one of the call's statements'. -/
def Blames (d : Draft) (past : List Statements.Done) (r : Except Exn α) : Prop :=
  r = .error .integrity → Refused d past

theorem Refused.snoc {x : Statements.Done} (h : Refused d past) (hx : x.op.returns = false) :
    Refused d (past ++ [x]) := by
  obtain ⟨y, hy, hrefused⟩ := h
  refine ⟨y, ?_, hrefused⟩
  rw [current_snoc, hx]
  exact List.mem_append_left _ hy

theorem blames_execute {st : Statement} (hst : (⟨.create d, st⟩ : Op).returns = false)
    (x : Except Exn st.Val) :
    Blames d (past ++ [(⟨⟨.create d, st⟩, x⟩ : Statements.Done)]) x := by
  intro hx
  refine ⟨⟨⟨.create d, st⟩, x⟩, ?_, rfl, hx⟩
  rw [current_snoc, if_neg (by rw [hst]; exact Bool.false_ne_true)]
  exact List.mem_append_right _ (List.mem_singleton_self _)

theorem Blames.ok {value : α} : Blames d past (.ok value) := by
  rintro ⟨⟩

/-- The same exception, of another type. -/
theorem Blames.error {e : Exn} (h : Blames d past (.error e : Except Exn α)) :
    Blames d past (.error e : Except Exn β) := by
  rintro ⟨⟩
  exact h rfl

/-- A part of the call that leaves the versions alone. -/
def Looking (d : Draft) (p : Prog α) : Prop :=
  ∀ past, inserting past = false → p.Follows Allowed past fun past' r =>
    inserting past' = false ∧ Blames d past' r

theorem Looking.bind {p : Prog α} {f : α → Prog β} (hp : Looking d p)
    (hf : ∀ value, Looking d (f value)) : Looking d (p.bind f) := by
  intro past hpast
  refine Program.Follows.bind ((hp past hpast).mono fun past' r h => ?_)
  cases r with
  | ok value => exact hf value past' h.1
  | error e => exact ⟨h.1, h.2.error⟩

theorem looking_execute {st : Statement} (hst : (⟨.create d, st⟩ : Op).returns = false)
    (hallowed : ∀ past, inserting past = false → Allowed past ⟨.create d, st⟩)
    (hkept : ∀ past x, inserting (past ++ [⟨⟨.create d, st⟩, x⟩]) = inserting past) :
    Looking d (execute (.create d) st) :=
  fun past hpast => follows_execute (hallowed past hpast) fun x =>
    ⟨(hkept past x).trans hpast, blames_execute hst x⟩

theorem looking_sopFor {sopKey : String} {data : Json} : Looking d (sopFor tools d sopKey data) := by
  have hlook : Looking d (execute (.create d) (.sopOf sopKey)) :=
    looking_execute rfl (fun _ _ => trivial) fun past x => inserting_snoc past _
  refine hlook.bind fun sop => ?_
  cases sop with
  | some sopId => exact fun past hpast => ⟨hpast, .ok⟩
  | none =>
    have hmint : Looking d (execute (.create d) .uuid4) :=
      looking_execute rfl (fun _ _ => trivial) fun past x => inserting_snoc past _
    have hinsert : ∀ row, Looking d (execute (.create d) (.insertSop row)) := fun row =>
      looking_execute rfl (fun _ _ => trivial) fun past x => inserting_snoc past _
    exact hmint.bind fun sopId => (hinsert _).bind fun _ past hpast => ⟨hpast, .ok⟩

/-- What the end of a call's transaction says. -/
def Told (d : Draft) (past : List Statements.Done) (r : Except Exn (Option Nat)) : Prop :=
  Blames d past r ∧
    (r = .ok none → ∀ source, d.source = some source → found d source ∈ current past)

theorem follows_append {event : AuditEvent} {versionId : Nat} :
    ((execute (.create d) (.append event)).bind fun _ => Program.ret (some versionId)).Follows
      Allowed past (Told d) := by
  refine Program.Follows.bind (follows_execute trivial fun x => ?_)
  have hblames : Blames d (past ++ [⟨⟨.create d, .append event⟩, x⟩]) x := blames_execute rfl x
  cases x with
  | error e => exact ⟨hblames.error, by rintro ⟨⟩⟩
  | ok u => exact ⟨.ok, by rintro ⟨⟩⟩

theorem follows_insertDraft {versionId sopId : Nat} {sopKey : String} {data : Json}
    (h : inserting past = false) :
    (insertDraft tools d versionId sopId sopKey data).Follows Allowed past (Told d) := by
  have hallowed : Allowed past ⟨.create d, .insertVersion (d.row versionId sopId data)⟩ :=
    ⟨h, d, versionId, sopId, data, rfl, rfl⟩
  refine Program.Follows.bind (follows_execute hallowed fun x => ?_)
  have hblames : Blames d (past ++ [⟨⟨.create d, .insertVersion (d.row versionId sopId data)⟩, x⟩])
    x := blames_execute rfl x
  cases x with
  | error e => exact ⟨hblames.error, by rintro ⟨⟩⟩
  | ok u =>
    exact follows_append

theorem follows_draftBody {versionId : Nat} {sopKey : String} {data : Json}
    (h : inserting past = false) :
    (draftBody tools d versionId sopKey data).Follows Allowed past (Told d) := by
  refine Program.Follows.bind ((looking_sopFor past h).mono fun past' r hlooked => ?_)
  obtain ⟨hinserting, hblames⟩ := hlooked
  cases r with
  | error e => exact ⟨hblames.error, by rintro ⟨⟩⟩
  | ok sopId =>
    dsimp only
    cases hsource : d.source with
    | none => exact follows_insertDraft hinserting
    | some source =>
      refine Program.Follows.bind (follows_execute hinserting fun x => ?_)
      have hblames : Blames d (past' ++ [⟨⟨.create d, .seen source⟩, x⟩]) x := blames_execute rfl x
      have hkept := inserting_snoc past' ⟨⟨.create d, .seen source⟩, x⟩
      cases x with
      | error e => exact ⟨hblames.error, by rintro ⟨⟩⟩
      | ok seen =>
        cases (seen : Bool) with
        | false => exact follows_insertDraft (hkept.trans hinserting)
        | true =>
          refine ⟨.ok, fun _ source' hsource' => ?_⟩
          obtain rfl : source = source' := Option.some.inj (hsource.symm.trans hsource')
          rw [current_snoc]
          exact List.mem_append_right _ (List.mem_singleton_self _)

theorem Told.snoc {r : Except Exn (Option Nat)} {x : Statements.Done} (h : Told d past r)
    (hx : x.op.returns = false) : Told d (past ++ [x]) r := by
  refine ⟨fun hr => (h.1 hr).snoc hx, fun hr source hsource => ?_⟩
  rw [current_snoc, hx]
  exact List.mem_append_left _ (h.2 hr source hsource)

/-- The transaction has ended, whatever it did. -/
theorem follows_transaction {body : Prog (Option Nat)} (h : body.Follows Allowed past (Told d)) :
    (transaction (.create d) body).Follows Allowed past fun past' r =>
      inserting past' = false ∧ Told d past' r := by
  refine Program.Follows.bind (Program.Follows.attempt (h.mono fun past' r htold => ?_))
  cases r with
  | ok created =>
    refine Program.Follows.bind (follows_execute trivial fun x => ?_)
    have hblames : Blames d (past' ++ [⟨⟨.create d, .commit⟩, x⟩]) x := blames_execute rfl x
    have hended := inserting_snoc past' ⟨⟨.create d, .commit⟩, x⟩
    cases x with
    | ok u => exact ⟨hended, htold.snoc rfl⟩
    | error e => exact ⟨hended, hblames.error, by rintro ⟨⟩⟩
  | error e =>
    refine Program.Follows.bind (follows_execute trivial fun x => ?_)
    have hblames : Blames d (past' ++ [⟨⟨.create d, .rollback⟩, x⟩]) x := blames_execute rfl x
    have hended := inserting_snoc past' ⟨⟨.create d, .rollback⟩, x⟩
    cases x with
    | ok u => exact ⟨hended, htold.snoc rfl⟩
    | error e => exact ⟨hended, hblames.error, by rintro ⟨⟩⟩

theorem normalised_cases (tools : Tools) (content : Json) :
    (∃ x, normalised tools content = Program.ret x) ∨
      ∃ e, e ≠ .integrity ∧ normalised tools content = Program.raise e := by
  unfold normalised
  split
  · exact .inr ⟨_, by rintro ⟨⟩, rfl⟩
  · split
    · exact .inl ⟨_, rfl⟩
    · exact .inr ⟨_, by rintro ⟨⟩, rfl⟩

/-- **A call of `create_draft`** returns `none` only for what it has found or what an index has
refused. -/
theorem follows_createDraft (h : inserting past = false) :
    (createDraft tools d).Follows Allowed past fun past' r => inserting past' = false ∧
      ∀ created, r = .ok created → left d created ∈ past' := by
  unfold createDraft
  rcases normalised_cases tools d.content with ⟨⟨sopKey, data⟩, hdata⟩ | ⟨e, -, hdata⟩
  · rw [hdata]
    have hallowed : Allowed past ⟨.create d, .uuid4⟩ := trivial
    show Program.Follows Allowed ((execute (.create d) .uuid4).bind _) past _
    refine Program.Follows.bind (follows_execute hallowed fun x => ?_)
    have hkept := inserting_snoc past ⟨⟨.create d, .uuid4⟩, x⟩
    cases x with
    | error e => exact ⟨hkept.trans h, by rintro _ ⟨⟩⟩
    | ok versionId =>
      refine Program.Follows.bind (Program.Follows.tryCatch
        ((follows_transaction (follows_draftBody (hkept.trans h))).mono fun past' r hr => ?_))
      obtain ⟨hinserting, hblames, hfound⟩ := hr
      have hreturn : ∀ created, (created = none → ∀ source, d.source = some source →
          Refused d past' ∨ found d source ∈ current past') →
          ((execute (.create d) (.returned created)).bind fun _ => Program.ret created).Follows
            Allowed past' fun past' r => inserting past' = false ∧
              ∀ created, r = .ok created → left d created ∈ past' := by
        intro created hnone
        have hallowed : Allowed past' ⟨.create d, .returned created⟩ := by
          cases created with
          | none => exact hnone rfl
          | some id => trivial
        refine Program.Follows.bind (follows_execute hallowed fun y => ?_)
        have hkept := inserting_snoc past' ⟨⟨.create d, .returned created⟩, y⟩
        cases y with
        | error e => exact ⟨hkept.trans hinserting, by rintro _ ⟨⟩⟩
        | ok u =>
          refine ⟨hkept.trans hinserting, ?_⟩
          rintro _ ⟨⟩
          exact List.mem_append_right _ (List.mem_singleton_self _)
      cases r with
      | ok created =>
        refine hreturn created fun hnone source hsource => .inr ?_
        exact hfound (by rw [hnone]) source hsource
      | error e =>
        show Program.Follows Allowed (if e = .integrity ∧ d.source.isSome then _ else _) past' _
        split
        · rename_i hskip
          exact hreturn none fun _ _ _ => .inl (hblames (by rw [hskip.1]))
        · exact ⟨hinserting, by rintro _ ⟨⟩⟩
  · rw [hdata]
    show Program.Follows Allowed (Program.raise e) past _
    exact ⟨h, by rintro _ ⟨⟩⟩

/-! ## The other programs -/

theorem Treated.grow {sourceId : String} {errors errors' : List String}
    {past' : List Statements.Done} {article : Article} (h : Treated sourceId errors past article)
    (herrors : errors <+: errors') (hpast : past <+: past') :
    Treated sourceId errors' past' article := by
  rcases h with ⟨d, created, hsource, hleft⟩ | ⟨message, herror⟩
  · exact .inl ⟨d, created, hsource, hpast.subset hleft⟩
  · exact .inr ⟨message, herrors.subset herror⟩

theorem follows_syncArticle {sourceId actor : String} {result : SyncResult} {article : Article}
    (h : inserting past = false) :
    (syncArticle tools sourceId actor result article).Follows Allowed past fun past' r =>
      inserting past' = false ∧ ∀ result', r = .ok result' → result.errors <+: result'.errors ∧
        Treated sourceId result'.errors past' article := by
  refine Program.Follows.bind (follows_execute trivial fun x => ?_)
  have hkept := inserting_snoc past ⟨⟨.sync sourceId actor, .draftFrom article⟩, x⟩
  cases x with
  | error e => exact ⟨hkept.trans h, by rintro _ ⟨⟩⟩
  | ok drafted =>
    obtain ⟨content, origin, text⟩ : Json × String × String := drafted
    refine Program.Follows.bind (Program.Follows.attempt
      ((follows_createDraft (hkept.trans h)).mono fun past' r hr => ?_))
    obtain ⟨hinserting, hleft⟩ := hr
    cases r with
    | error e =>
      cases e with
      | sop name message =>
        refine ⟨hinserting, ?_⟩
        rintro _ ⟨⟩
        exact ⟨List.prefix_append _ _,
          .inr ⟨message, List.mem_append_right _ (List.mem_singleton_self _)⟩⟩
      | integrity => exact ⟨hinserting, by rintro _ ⟨⟩⟩
      | other name => exact ⟨hinserting, by rintro _ ⟨⟩⟩
    | ok created =>
      have htreated : Treated sourceId result.errors past' article :=
        .inl ⟨_, created, rfl, hleft created rfl⟩
      cases created with
      | none =>
        refine ⟨hinserting, ?_⟩
        rintro _ ⟨⟩
        exact ⟨List.prefix_rfl, htreated⟩
      | some id =>
        refine ⟨hinserting, ?_⟩
        rintro _ ⟨⟩
        exact ⟨List.prefix_rfl, htreated⟩

theorem follows_syncArticles {sourceId actor : String} (articles : List Article)
    (result : SyncResult) (h : inserting past = false) :
    (syncArticles tools sourceId actor result articles).Follows Allowed past fun past' r =>
      inserting past' = false ∧ ∀ result', r = .ok result' → result.errors <+: result'.errors ∧
        ∀ article ∈ articles, Treated sourceId result'.errors past' article := by
  induction articles generalizing past result with
  | nil =>
    refine ⟨h, ?_⟩
    rintro _ ⟨⟩
    exact ⟨List.prefix_rfl, by simp⟩
  | cons article articles ih =>
    refine Program.Follows.bind ((follows_syncArticle h).mono fun past₁ r hr => ?_)
    obtain ⟨hinserting, hresult⟩ := hr
    cases r with
    | error e => exact ⟨hinserting, by rintro _ ⟨⟩⟩
    | ok result₁ =>
      obtain ⟨herrors, htreated⟩ := hresult result₁ rfl
      refine ((ih result₁ hinserting).grow List.prefix_rfl).mono fun past₂ r hr => ?_
      obtain ⟨hgrow, hinserting, hrest⟩ := hr
      refine ⟨hinserting, fun result₂ hr => ?_⟩
      obtain ⟨herrors', hrest⟩ := hrest result₂ hr
      refine ⟨herrors.trans herrors', fun article' harticle => ?_⟩
      rcases List.mem_cons.mp harticle with rfl | harticle
      · exact htreated.grow herrors' hgrow
      · exact hrest article' harticle

theorem follows_syncSource {sourceId actor : String} (h : inserting past = false) :
    (syncSource tools sourceId actor).Follows Allowed past fun _ _ => True := by
  have hunread : ∀ past' result, (execute (.sync sourceId actor) (.record actor result none)).Follows
      Allowed past' fun _ _ => True := fun _ _ => follows_execute trivial fun _ => trivial
  refine Program.Follows.bind (Program.Follows.attempt (Program.Follows.bind
    (follows_execute trivial fun x => ?_)))
  have hkept := inserting_snoc past ⟨⟨.sync sourceId actor, .cursor sourceId⟩, x⟩
  cases x with
  | error e => exact hunread _ _
  | ok since =>
    refine follows_execute trivial fun y => ?_
    have hread := inserting_snoc (past ++ [⟨⟨.sync sourceId actor, .cursor sourceId⟩, .ok since⟩])
      ⟨⟨.sync sourceId actor, .changedSince since⟩, y⟩
    cases y with
    | error e => exact hunread _ _
    | ok answer =>
      obtain ⟨articles, cursor⟩ : List Article × String := answer
      refine Program.Follows.bind (((follows_syncArticles articles _
        (hread.trans (hkept.trans h))).grow List.prefix_rfl).mono fun past' r hr => ?_)
      obtain ⟨hgrow, -, hresult⟩ := hr
      cases r with
      | error e => trivial
      | ok result =>
        refine follows_execute ?_ fun _ => trivial
        refine ⟨since, articles, hgrow.subset ?_, (hresult result rfl).2⟩
        exact List.mem_append_right _ (List.mem_singleton_self _)

/-- The statements that are always allowed. -/
def Op.Free (o : Op) : Prop := ∀ past, Allowed past o

theorem issues_execute {request : Request} {st : Statement} (h : (⟨request, st⟩ : Op).Free) :
    (execute request st).Issues Op.Free := by
  refine ⟨h, fun x => ?_⟩
  cases x with
  | ok value => trivial
  | error e => trivial

theorem issues_require {p : Prop} [Decidable p] {e : Exn} : (require p e).Issues Op.Free :=
  Program.Issues.ite (fun _ => trivial) fun _ => trivial

theorem issues_getVersion {request : Request} {versionId : Nat} :
    (getVersion request versionId).Issues Op.Free := by
  refine Program.Issues.bind (issues_execute fun _ => trivial) fun row => ?_
  cases row with
  | some row => trivial
  | none => trivial

theorem issues_transaction {request : Request} {body : Prog α} (h : body.Issues Op.Free)
    (hcommit : (⟨request, .commit⟩ : Op).Free) (hrollback : (⟨request, .rollback⟩ : Op).Free) :
    (transaction request body).Issues Op.Free := by
  refine Program.Issues.bind h.attempt fun r => ?_
  cases r with
  | ok value => exact Program.Issues.bind (issues_execute hcommit) fun _ => trivial
  | error e => exact Program.Issues.bind (issues_execute hrollback) fun _ => trivial

theorem issues_updateDraft {actor : String} {versionId : Nat} {content : Json} :
    (updateDraft tools actor versionId content).Issues Op.Free := by
  have hnormalised : (normalised tools content).Issues Op.Free := by
    rcases normalised_cases tools content with ⟨x, hx⟩ | ⟨e, -, he⟩
    · rw [hx]
      trivial
    · rw [he]
      trivial
  refine Program.Issues.bind hnormalised fun ⟨sopKey, data⟩ => ?_
  refine issues_transaction ?_ (fun _ => trivial) fun _ => trivial
  refine Program.Issues.bind issues_getVersion fun ⟨row, rowKey⟩ => ?_
  refine Program.Issues.bind issues_require fun _ => Program.Issues.bind issues_require fun _ =>
    Program.Issues.bind issues_require fun _ => ?_
  exact Program.Issues.bind (issues_execute fun _ => trivial) fun _ => issues_execute fun _ => trivial

theorem issues_discardDraft {actor : String} {versionId : Nat} :
    (discardDraft actor versionId).Issues Op.Free := by
  refine issues_transaction ?_ (fun _ => trivial) fun _ => trivial
  refine Program.Issues.bind issues_getVersion fun ⟨row, sopKey⟩ => ?_
  refine Program.Issues.bind issues_require fun _ => ?_
  exact Program.Issues.bind (issues_execute fun _ => trivial) fun _ => issues_execute fun _ => trivial

theorem issues_reviewVersion {actor : String} {versionId : Nat} {status : SopStatus} :
    (reviewVersion actor versionId status).Issues Op.Free :=
  issues_transaction (Program.Issues.bind issues_getVersion fun _ => issues_execute fun _ => trivial)
    (fun _ => trivial) fun _ => trivial

theorem follows_of_issues {p : Prog Unit} (h : p.Issues Op.Free) :
    p.Follows Allowed [] fun _ _ => True :=
  (Program.Issues.abides (K := fun _ => True) (fun _ _ _ => trivial)
    (fun past _ _ ho => ho past) h [] trivial).mono fun _ _ _ => trivial

/-- **Every program does what it is allowed to do.** -/
theorem serve_follows (tools : Tools) (request : Request) :
    (serve tools request).Follows Allowed [] fun _ _ => True := by
  cases request with
  | create d =>
    refine Program.Follows.bind ((follows_createDraft rfl).mono fun past r _ => ?_)
    cases r with
    | ok created => trivial
    | error e => trivial
  | sync sourceId actor => exact follows_syncSource rfl
  | update actor versionId content => exact follows_of_issues issues_updateDraft
  | discard actor versionId => exact follows_of_issues issues_discardDraft
  | review actor versionId status => exact follows_of_issues issues_reviewVersion
  | abort thread =>
    have hfree : (⟨.abort thread, .abort thread⟩ : Op).Free := fun _ => trivial
    exact follows_of_issues (issues_execute hfree)

end

end Drafting
end L1Agent
