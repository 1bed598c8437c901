import LinkedNotes.Proofs.Match.Resolver
import LinkedNotes.Workspace.Session

/-!
# Operations that only ask

Most steps of an operation ask the file system something and change neither the files nor the list
of notes that is kept. Main statement: such steps can be chained, and matching a link text in a
session names what it names for the files of the session. Writing files is outside this module.
-/

namespace LinkedNotes

/-- A token by which nobody cancels. -/
structure Token.Quiet (token : Token) : Prop where
  /-- Nobody has cancelled. -/
  untouched : token.cancelled = false
  /-- Nobody cancels during a call. -/
  never : ∀ calls, token.trips calls = false

/-- Nobody cancels by a new token. -/
theorem Token.quiet_new : Quiet {} where
  untouched := rfl
  never := fun _ => rfl

/-- A call does not cancel an operation that nobody cancels. -/
theorem Token.Quiet.during {token : Token} (h : token.Quiet) (call : Call) :
    (token.during call).Quiet where
  untouched := by simp [Token.during, h.untouched, h.never]
  never := h.never

/-- A call does not take back that an operation is cancelled. -/
theorem Token.cancelled_during {token : Token} (h : token.cancelled = true) (call : Call) :
    (token.during call).cancelled = true := by
  simp [Token.during, h]

/-- What asking leaves of a session. -/
structure Session.Follows {σ : Type} (after before : Session σ) : Prop where
  /-- The files are the same. -/
  files : after.files = before.files
  /-- The list of notes that is kept is the same. -/
  index : after.index = before.index
  /-- Nobody cancels who would not have done so before. -/
  quiet : before.token.Quiet → after.token.Quiet
  /-- What is cancelled stays so. -/
  stopped : before.token.cancelled = true → after.token.cancelled = true

namespace Session.Follows

variable {σ : Type} {first second third : Session σ}

theorem refl (session : Session σ) : session.Follows session :=
  ⟨rfl, rfl, id, id⟩

theorem trans (h : third.Follows second) (h' : second.Follows first) : third.Follows first :=
  ⟨h.files.trans h'.files, h.index.trans h'.index, h.quiet ∘ h'.quiet, h.stopped ∘ h'.stopped⟩

end Session.Follows

namespace Action

variable {σ α β : Type}

/-- Whether an operation on a session has a result and only asks for it. -/
def Answers (action : Action σ α) (session : Session σ) (result : α) : Prop :=
  ∃ after, action.run session = (result, after) ∧ after.Follows session

/-- A step is followed by what comes after it. -/
theorem run_bind_of_eq {action : Action σ α} {next : α → Action σ β} {session after : Session σ}
    {result : α} (h : action.run session = (result, after)) :
    (action >>= next).run session = (next result).run after := by
  simp only [StateT.run_bind, h]
  rfl

/-- A result needs no asking. -/
theorem answers_pure (session : Session σ) (result : α) :
    Answers (pure result) session result :=
  ⟨session, rfl, .refl session⟩

/-- What only asks goes on from where a step that only asks has come. -/
theorem answers_of_run {action : Action σ α} {next : α → Action σ β} {session after : Session σ}
    {result : α} {final : β} (hrun : action.run session = (result, after))
    (hafter : after.Follows session) (hnext : (next result).Answers after final) :
    (action >>= next).Answers session final := by
  obtain ⟨last, hlast, hfollows⟩ := hnext
  exact ⟨last, (run_bind_of_eq hrun).trans hlast, hfollows.trans hafter⟩

/-- What only asks in each of its steps only asks. -/
theorem answers_bind {action : Action σ α} {next : α → Action σ β} {session : Session σ}
    {result : α} {final : β} (h : action.Answers session result)
    (hnext : ∀ after : Session σ, after.Follows session → (next result).Answers after final) :
    (action >>= next).Answers session final := by
  obtain ⟨after, hrun, hafter⟩ := h
  exact answers_of_run hrun hafter (hnext after hafter)

/-- A question about the files is answered by them. -/
theorem answers_ask (call : Call) (answer : σ → α) (session : Session σ) :
    (ask call answer).Answers session (answer session.files) :=
  ⟨{ session with token := session.token.during call }, rfl, rfl, rfl, (·.during call),
    (Token.cancelled_during · call)⟩

/-- Whether an operation is cancelled can always be seen. -/
theorem answers_cancelled (session : Session σ) :
    cancelled.Answers session session.token.cancelled :=
  ⟨session, rfl, .refl session⟩

/-- Nobody has cancelled who never does. -/
theorem answers_cancelled_of_quiet {session : Session σ} (h : session.token.Quiet) :
    cancelled.Answers session false :=
  h.untouched ▸ answers_cancelled session

variable [FileSystem σ]

theorem answers_read (path : Path) (session : Session σ) :
    (read path).Answers session (FileSystem.read session.files path) :=
  answers_ask ..

theorem answers_isFile (path : Path) (session : Session σ) :
    (isFile path).Answers session (FileSystem.isFile session.files path) :=
  answers_ask ..

/-- A literal path leads in a session where it leads for its files. -/
theorem answers_literalFile (raw : Text) (source : Path) (session : Session σ) :
    (Matcher.literalFile isFile raw (some source)).Answers session
      (Matcher.literalIn (FileSystem.isFile session.files) raw source) := by
  simp only [Matcher.literalFile, Matcher.literalIn]
  cases Matcher.literalPath? raw (some source) with
  | none => exact answers_pure session []
  | some path =>
    refine answers_bind (answers_isFile path session) fun after _ => ?_
    cases h : FileSystem.isFile session.files path <;> simp [h] <;> exact answers_pure after _

/-- A text names in a session what it names for its files. -/
theorem answers_documents (matcher : Matcher) (raw : Text) (source : Path) (notes : List Path)
    (session : Session σ) :
    (matcher.documents isFile raw (some source) notes).Answers session
      (matcher.documentsOf (FileSystem.isFile session.files) notes raw source) := by
  rw [Matcher.documentsOf_eq]
  unfold Matcher.documents
  split
  · exact answers_pure session []
  · cases matcher.knownNotes raw (some source) notes with
    | cons note more => exact answers_pure session (note :: more)
    | nil => exact answers_literalFile raw source session

/-- A search in a session finds what it finds for its files. -/
theorem answers_find (resolver : Resolver) (matcher : Matcher) (raw : Text) (source : Path)
    (notes : List Path) (session : Session σ) :
    (resolver.find matcher isFile raw source notes).Answers session
      (resolver.find (m := Id) matcher (FileSystem.isFile session.files) raw source notes) := by
  unfold Resolver.find
  split
  · exact answers_pure session _
  · cases matcher.convention with
    | uniqueNames =>
      exact answers_bind (answers_documents matcher raw source notes session) fun after _ =>
        answers_pure after _
    | relativePaths =>
      rcases resolver.relativeNotes matcher raw source notes with ⟨found, remembered⟩
      cases found with
      | cons note more => exact answers_pure session _
      | nil =>
        simp only
        rw [Matcher.literalFile_id]
        exact answers_bind (answers_literalFile raw source session) fun after _ =>
          answers_pure after _

/-- A search in a session answers as it does for its files, and remembers the same. -/
theorem answers_resolve (resolver : Resolver) (matcher : Matcher) (raw : Text) (source : Path)
    (notes : List Path) (session : Session σ) :
    (resolver.resolve matcher isFile raw source notes).Answers session
      (resolver.answer matcher (FileSystem.isFile session.files) notes ⟨raw, source⟩) := by
  simp only [Resolver.answer, Resolver.resolve]
  cases resolver.answers.lookup (Resolver.answerKey matcher raw source) with
  | some found => exact answers_pure session _
  | none =>
    exact answers_bind (answers_find resolver matcher raw source notes session) fun after _ =>
      answers_pure after _

end Action
end LinkedNotes
