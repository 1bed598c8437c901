import LinkedNotes.Proofs.Files.Laws
import LinkedNotes.Server.Dispatch

/-!
# Suggestions after edits

An edit plans a suggestion, and the suggestion is sent later if it is still wanted. Notices of the
client and the times of planned suggestions may follow each other in any order. Main statement: the
suggestion of an edit is sent exactly when the cursor is in a link of the text at that time, and
either the document was not closed and no edit followed, or it was closed and then edited up to the
same number again. An edit that is not made in an open document does not count as one. How long a
suggestion waits is outside this module.
-/

namespace LinkedNotes

namespace Documents

variable (documents : Documents)

/-- Changes of an open document are counted, and a suggestion has their number. -/
theorem changed_of_open {uri : Uri} {text : Text} (h : documents.texts.get? uri = some text)
    (changes : List ContentChange) :
    documents.changed uri changes =
      let edited := ContentChange.applyAll text changes
      let edit := (documents.edits.get? uri).getD 0 + 1
      (⟨documents.texts.set uri edited.1, documents.edits.set uri edit⟩,
        edited.2.map fun cursor => ⟨uri, edit, cursor⟩) := by
  rw [changed, h]

/-- Changes of another document do not count. -/
theorem changed_of_not_open {uri : Uri} (h : documents.texts.get? uri = none)
    (changes : List ContentChange) : documents.changed uri changes = (documents, none) := by
  rw [changed, h]

/-- A suggestion belongs to the document that was changed, and has the number of the changes. -/
theorem eq_of_changed {uri : Uri} {changes : List ContentChange} {suggestion : Suggestion}
    (h : (documents.changed uri changes).2 = some suggestion) :
    suggestion.uri = uri ∧ suggestion.edit ≠ 0 ∧
      (documents.changed uri changes).1.edits.get? uri = some suggestion.edit := by
  cases hopen : documents.texts.get? uri with
  | none =>
    rw [changed_of_not_open documents hopen] at h
    cases h
  | some text =>
    rw [changed_of_open documents hopen] at h ⊢
    obtain ⟨cursor, -, rfl⟩ := Option.map_eq_some_iff.mp h
    exact ⟨rfl, Nat.succ_ne_zero _, UriMap.get?_set_self ..⟩

/-- The number of edits of a document that was changed. -/
theorem edits_changed (uri other : Uri) (changes : List ContentChange) :
    (documents.changed other changes).1.edits.get? uri =
      if other = uri ∧ (documents.texts.get? uri).isSome = true then
        some ((documents.edits.get? uri).getD 0 + 1)
      else documents.edits.get? uri := by
  cases hopen : documents.texts.get? other with
  | none =>
    rw [changed_of_not_open documents hopen]
    by_cases hother : other = uri
    · subst hother
      simp [hopen]
    · simp [hother]
  | some text =>
    rw [changed_of_open documents hopen]
    by_cases hother : other = uri
    · subst hother
      simp [hopen]
    · simp [hother, UriMap.get?_set_of_ne _ (Ne.symm hother)]

/-- Renaming files counts no edits. -/
theorem edits_renamedAll (pairs : List (Uri × Uri)) :
    (documents.renamedAll pairs).edits = documents.edits := by
  induction pairs generalizing documents with
  | nil => rfl
  | cons pair rest ih =>
    have hrenamed : (documents.renamed pair.1 pair.2).edits = documents.edits := by
      unfold renamed
      cases documents.texts.get? pair.1 <;> rfl
    exact (ih _).trans hrenamed

/-- A suggestion is wanted when no edit was counted after it and its cursor is in a link. -/
theorem wants_iff (suggestion : Suggestion) :
    documents.wants suggestion = true ↔
      documents.edits.get? suggestion.uri = some suggestion.edit ∧
        ∃ text link, documents.texts.get? suggestion.uri = some text ∧
          Link.atPointOrOpen? text suggestion.cursor = some link := by
  simp only [wants, Bool.and_eq_true, decide_eq_true_eq, Option.any_eq_true,
    Option.isSome_iff_exists]
  constructor
  · rintro ⟨hedit, text, htext, link, hlink⟩
    exact ⟨hedit, text, link, htext, hlink⟩
  · rintro ⟨hedit, text, link, htext, hlink⟩
    exact ⟨hedit, text, htext, link, hlink⟩

/-- The open documents after a notice. -/
def heeded : Server.Notice → Documents
  | .opened uri text => documents.opened uri text
  | .changed uri changes => (documents.changed uri changes).1
  | .closed uri => documents.closed uri
  | .renamed pairs => documents.renamedAll <| pairs.filterMap fun (old, new) => do
    return (← Uri.parse? old, ← Uri.parse? new)
  | .ready | .saved _ | .filesChanged _ | .configured _ => documents

end Documents

namespace Server

variable {σ : Type}

/-- What happens to a server. -/
inductive Event where
  /-- A notice of the client. -/
  | notice (notice : Notice)
  /-- Some time without anything else. -/
  | wait (milliseconds : Nat)
  /-- The time of one of the planned suggestions. -/
  | due (place : Nat)

/-- Lets something happen. -/
def step (server : Server σ) : Event → Server σ
  | .notice notice => ((heed notice).run server).2
  | .wait milliseconds => { server with time := server.time + milliseconds }
  | .due place =>
    match server.planned[place]? with
    | none => server
    | some (_, suggestion) =>
      ((fire suggestion).run { server with planned := server.planned.eraseIdx place }).2

/-- Lets several things happen. -/
def run (server : Server σ) (events : List Event) : Server σ :=
  events.foldl step server

/-- What happens last is one step. -/
theorem run_concat (server : Server σ) (events : List Event) (last : Event) :
    server.run (events ++ [last]) = (server.run events).step last := by
  rw [run, List.foldl_append]
  rfl

/-- What happens can be taken in two parts. -/
theorem run_append (server : Server σ) (first second : List Event) :
    server.run (first ++ second) = (server.run first).run second :=
  List.foldl_append

/-- A suggestion whose time has come is sent if it is wanted. -/
theorem fire_run (suggestion : Suggestion) (server : Server σ) :
    ((fire suggestion).run server).2 =
      if server.documents.wants suggestion = true then
        { server with sent := server.sent ++ [.suggest suggestion.uri suggestion.cursor] }
      else server := by
  unfold fire
  simp only [StateT.run_bind, StateT.run_get, pure_bind]
  cases server.documents.wants suggestion <;> rfl

/-- A changed document may plan a suggestion. -/
theorem didChange_run (uri : Uri) (changes : List ContentChange) (server : Server σ) :
    ((didChange uri changes).run server).2 =
      let changed := server.documents.changed uri changes
      let planned := if server.settings.notes.suggestOnEdit = true then changed.2.toList else []
      { server with
        documents := changed.1
        planned := server.planned ++ planned.map (server.time + suggestionDelay, ·) } := by
  have hrun : ((didChange uri changes).run server).2 =
      ((if server.settings.notes.suggestOnEdit then
          (server.documents.changed uri changes).2.forM plan
        else pure () : Handler σ Unit).run
          { server with documents := (server.documents.changed uri changes).1 }).2 := rfl
  rw [hrun]
  generalize server.documents.changed uri changes = changed
  obtain ⟨documents, suggestion⟩ := changed
  cases server.settings.notes.suggestOnEdit with
  | false =>
    simp only [Bool.false_eq_true, if_false, List.map_nil, List.append_nil]
    rfl
  | true =>
    cases suggestion with
    | none =>
      simp only [if_true, Option.toList_none, List.map_nil, List.append_nil]
      rfl
    | some suggestion => rfl

/-- A new generation of the list of notes has nothing to do with documents and suggestions. -/
theorem exists_invalidate_run (server : Server σ) :
    ∃ index, (invalidate.run server).2 = { server with index := index } := by
  rw [invalidate_run]
  split
  · exact ⟨_, rfl⟩
  · exact ⟨_, rfl⟩

/-- The suggestions that a notice plans. -/
def suggestions (server : Server σ) : Notice → List Suggestion
  | .changed uri changes =>
    if server.settings.notes.suggestOnEdit = true then
      (server.documents.changed uri changes).2.toList
    else []
  | _ => []

/-- What a change plans is its suggestion. -/
theorem changed_of_mem_suggestions {server : Server σ} {uri : Uri} {changes : List ContentChange}
    {suggestion : Suggestion} (h : suggestion ∈ server.suggestions (.changed uri changes)) :
    (server.documents.changed uri changes).2 = some suggestion := by
  simp only [suggestions] at h
  split at h
  · exact Option.mem_toList.mp h
  · cases h

/-- What a notice does to documents and suggestions; none is sent. -/
structure Heeded (server : Server σ) (notice : Notice) (after : Server σ) : Prop where
  /-- The documents are changed as the notice says. -/
  documents : after.documents = server.documents.heeded notice
  /-- Suggestions are planned behind the others. -/
  planned : after.planned =
    server.planned ++ (server.suggestions notice).map (server.time + suggestionDelay, ·)
  /-- Only other messages are sent. -/
  sent : ∃ more, after.sent = server.sent ++ more ∧ ∀ uri cursor, .suggest uri cursor ∉ more

/-- Settings that are taken over, refused or missing leave documents and suggestions alone. -/
theorem heeded_configured (server : Server σ) (all : Json) :
    server.Heeded (.configured all) ((heed (.configured all)).run server).2 := by
  have hlog (gravity : Gravity) (text : Text) :
      ∀ uri cursor, Outgoing.suggest uri cursor ∉ [.log gravity text] := by simp
  simp only [heed, didChangeSettings]
  cases all.field? sectionName with
  | none => exact ⟨rfl, (List.append_nil _).symm, [], (List.append_nil _).symm, by simp⟩
  | some overrides =>
    simp only [StateT.run_bind, StateT.run_get, pure_bind]
    cases server.settings.mergedWith overrides with
    | error misfit => exact ⟨rfl, (List.append_nil _).symm, _, rfl, hlog _ _⟩
    | ok settings =>
      obtain ⟨index, hindex⟩ := exists_invalidate_run
        { server with settings := settings, logFilter := some settings.logLevel }
      have hrun : (do
          applyLogLevel settings
          storeSettings settings
          invalidate
          send (.log .info "LSP settings updated".toList) : Handler σ Unit).run server =
        (send (.log .info "LSP settings updated".toList)).run (invalidate.run
          { server with settings := settings, logFilter := some settings.logLevel }).2 := rfl
      rw [hrun, hindex]
      exact ⟨rfl, (List.append_nil _).symm, _, rfl, hlog _ _⟩

/-- Every notice is heeded so. -/
theorem heeded_heed (server : Server σ) (notice : Notice) :
    server.Heeded notice ((heed notice).run server).2 := by
  have hnone : ∃ more, server.sent = server.sent ++ more ∧
      ∀ uri cursor, Outgoing.suggest uri cursor ∉ more := ⟨[], by simp, by simp⟩
  cases notice with
  | ready => exact ⟨rfl, (List.append_nil _).symm, [.watchNotes], rfl, by simp⟩
  | opened uri text => exact ⟨rfl, (List.append_nil _).symm, hnone⟩
  | closed uri => exact ⟨rfl, (List.append_nil _).symm, hnone⟩
  | changed uri changes =>
    simp only [heed]
    rw [didChange_run]
    exact ⟨rfl, rfl, hnone⟩
  | saved uri =>
    have hrun : ((heed (.saved uri)).run server).2 =
        if uri.toPath?.any Note.isNotePath = true then (invalidate.run server).2 else server := by
      simp only [heed, didSave]
      split <;> rfl
    obtain ⟨index, hindex⟩ := exists_invalidate_run server
    rw [hrun, hindex]
    split <;> exact ⟨rfl, (List.append_nil _).symm, hnone⟩
  | filesChanged events =>
    have hrun : ((heed (.filesChanged events)).run server).2 =
        if FileEvent.structural ∈ events then (invalidate.run server).2 else server := by
      simp only [heed, didChangeFiles]
      split <;> rfl
    obtain ⟨index, hindex⟩ := exists_invalidate_run server
    rw [hrun, hindex]
    split <;> exact ⟨rfl, (List.append_nil _).symm, hnone⟩
  | renamed pairs =>
    obtain ⟨index, hindex⟩ := exists_invalidate_run
      { server with documents := server.documents.heeded (.renamed pairs) }
    have hrun : ((heed (.renamed pairs)).run server).2 =
      (invalidate.run { server with documents := server.documents.heeded (.renamed pairs) }).2 :=
        rfl
    rw [hrun, hindex]
    exact ⟨rfl, (List.append_nil _).symm, hnone⟩
  | configured all => exact heeded_configured server all

/-- The time of a suggestion takes it away and only sends it if it is wanted. -/
theorem step_due {server : Server σ} {place : Nat} {planned : Nat × Suggestion}
    (h : server.planned[place]? = some planned) :
    server.step (.due place) =
      let left := { server with planned := server.planned.eraseIdx place }
      if server.documents.wants planned.2 = true then
        { left with sent := server.sent ++ [.suggest planned.2.uri planned.2.cursor] }
      else left := by
  simp only [step, h]
  exact fire_run planned.2 _

/-- Nothing happens when no suggestion is planned. -/
theorem step_due_of_eq_none {server : Server σ} {place : Nat}
    (h : server.planned[place]? = none) : server.step (.due place) = server := by
  simp only [step, h]

/-- Suggestions whose time has come take their turns one after the other. -/
theorem forM_fire_run (due rest : List (Nat × Suggestion)) (server : Server σ) :
    ((due.forM fun (_, suggestion) => fire suggestion : Handler σ Unit).run
        { server with planned := rest }).2 =
      ({ server with planned := due ++ rest } : Server σ).run
        (List.replicate due.length (.due 0)) := by
  induction due generalizing server with
  | nil => rfl
  | cons first due ih =>
    have hforM : (((first :: due).forM fun (_, suggestion) => fire suggestion :
          Handler σ Unit).run { server with planned := rest }).2 =
        ((due.forM fun (_, suggestion) => fire suggestion : Handler σ Unit).run
          ((fire first.2).run { server with planned := rest }).2).2 := rfl
    have hrun : ({ server with planned := first :: due ++ rest } : Server σ).run
          (List.replicate (first :: due).length (.due 0)) =
        (({ server with planned := first :: due ++ rest } : Server σ).step (.due 0)).run
          (List.replicate due.length (.due 0)) := rfl
    have hfirst : ({ server with planned := first :: due ++ rest } : Server σ).planned[0]? =
        some first := rfl
    rw [hforM, hrun, fire_run, step_due hfirst]
    cases server.documents.wants first.2 with
    | false => exact ih server
    | true => exact ih { server with sent := server.sent ++ [.suggest first.2.uri first.2.cursor] }

/-- Passing time is a wait, after which the suggestions whose time has come take their turns. -/
theorem pass_run (milliseconds : Nat) (server : Server σ) :
    let due := server.planned.takeWhile (·.1 ≤ server.time + milliseconds)
    ((pass milliseconds).run server).2 =
      server.run (.wait milliseconds :: List.replicate due.length (.due 0)) := by
  intro due
  have hpass : ((pass milliseconds).run server).2 =
      ((due.forM fun (_, suggestion) => fire suggestion : Handler σ Unit).run
        { server with
          time := server.time + milliseconds, planned := server.planned.drop due.length }).2 := rfl
  have hplanned : due ++ server.planned.drop due.length = server.planned :=
    List.prefix_iff_eq_append.mp (List.takeWhile_prefix _)
  have hfires := forM_fire_run due (server.planned.drop due.length)
    { server with time := server.time + milliseconds }
  rw [hplanned] at hfires
  exact hpass.trans hfires

/-- Documents change with notices only. -/
theorem documents_step_due (server : Server σ) (place : Nat) :
    (server.step (.due place)).documents = server.documents := by
  cases hplanned : server.planned[place]? with
  | none => rw [step_due_of_eq_none hplanned]
  | some planned =>
    rw [step_due hplanned]
    simp only
    split <;> rfl

/-- Whether something counts as an edit of a document. -/
def Event.counts (server : Server σ) (uri : Uri) : Event → Bool
  | .notice (.changed other _) => other = uri && (server.documents.texts.get? uri).isSome
  | _ => false

/-- The number of edits of a document that are counted. -/
def editsIn (server : Server σ) (uri : Uri) : List Event → Nat
  | [] => 0
  | event :: rest =>
    (if event.counts server uri then 1 else 0) + (server.step event).editsIn uri rest

/-- Edits are counted as long as the document is not closed. -/
theorem edits_step (server : Server σ) {uri : Uri} {event : Event}
    (h : event ≠ .notice (.closed uri)) :
    (server.step event).documents.edits.get? uri =
      if event.counts server uri = true then
        some ((server.documents.edits.get? uri).getD 0 + 1)
      else server.documents.edits.get? uri := by
  cases event with
  | wait milliseconds => rfl
  | due place =>
    rw [documents_step_due]
    rfl
  | notice notice =>
    simp only [step, (server.heeded_heed notice).documents]
    cases notice with
    | changed other changes =>
      simp only [Documents.heeded, Documents.edits_changed, Event.counts, Bool.and_eq_true,
        decide_eq_true_eq]
    | closed other =>
      have hother : uri ≠ other := fun heq => h (heq ▸ rfl)
      exact UriMap.get?_erase_of_ne _ hother
    | renamed pairs =>
      simp only [Documents.heeded, Documents.edits_renamedAll]
      rfl
    | ready | opened other text | saved other | filesChanged events | configured all => rfl

/-- While a document is not closed, its number goes up with its edits. -/
theorem edits_run (server : Server σ) {uri : Uri} {events : List Event}
    (h : .notice (.closed uri) ∉ events) :
    (server.run events).documents.edits.get? uri =
      if server.editsIn uri events = 0 then server.documents.edits.get? uri
      else some ((server.documents.edits.get? uri).getD 0 + server.editsIn uri events) := by
  induction events generalizing server with
  | nil => rfl
  | cons event rest ih =>
    rw [List.mem_cons, not_or] at h
    have hrun : server.run (event :: rest) = (server.step event).run rest := rfl
    rw [hrun, ih _ h.2, server.edits_step (Ne.symm h.1), editsIn]
    cases event.counts server uri with
    | false => simp
    | true =>
      simp only [if_true, Option.getD_some, Nat.add_eq_zero_iff, Nat.one_ne_zero, false_and,
        if_false]
      split
      · simp [*]
      · simp only [Option.some.injEq]
        omega

/-- After a document was closed, its number is that of the edits since. -/
theorem edits_run_closed (server : Server σ) {uri : Uri} {events : List Event}
    (h : .notice (.closed uri) ∉ events) {edit : Nat} (hedit : edit ≠ 0) :
    let closed := server.step (.notice (.closed uri))
    (closed.run events).documents.edits.get? uri = some edit ↔ closed.editsIn uri events = edit := by
  intro closed
  have hclosed : closed.documents.edits.get? uri = none := by
    rw [show closed.documents = server.documents.closed uri from
      (server.heeded_heed (.closed uri)).documents]
    exact UriMap.get?_erase_self ..
  rw [closed.edits_run h, hclosed]
  split
  · simp [*, hedit.symm]
  · simp

/-- Whether something is an edit that plans a suggestion. -/
def Plans (server : Server σ) (event : Event) (suggestion : Suggestion) : Prop :=
  ∃ changes, event = .notice (.changed suggestion.uri changes) ∧
    suggestion ∈ server.suggestions (.changed suggestion.uri changes)

/-- Whether a document is neither closed nor edited. -/
def Untouched (server : Server σ) (uri : Uri) (events : List Event) : Prop :=
  .notice (.closed uri) ∉ events ∧ server.editsIn uri events = 0

/-- Whether a document is closed and has a number of edits since it was closed last. -/
def Recounted (server : Server σ) (uri : Uri) (edit : Nat) (events : List Event) : Prop :=
  ∃ before since, events = before ++ .notice (.closed uri) :: since ∧
    .notice (.closed uri) ∉ since ∧
    ((server.run before).step (.notice (.closed uri))).editsIn uri since = edit

/-- A suggestion that is planned was so before, or is planned by an edit. -/
theorem planned_step {server : Server σ} {event : Event} {time : Nat} {suggestion : Suggestion}
    (h : (time, suggestion) ∈ (server.step event).planned) :
    (time, suggestion) ∈ server.planned ∨ server.Plans event suggestion := by
  cases event with
  | wait milliseconds => exact .inl h
  | due place =>
    cases hplanned : server.planned[place]? with
    | none =>
      rw [step_due_of_eq_none hplanned] at h
      exact .inl h
    | some planned =>
      have hleft : (server.step (.due place)).planned = server.planned.eraseIdx place := by
        rw [step_due hplanned]
        simp only
        split <;> rfl
      rw [hleft] at h
      exact .inl (List.mem_of_mem_eraseIdx h)
  | notice notice =>
    have hplanned : (server.step (.notice notice)).planned = _ :=
      (server.heeded_heed notice).planned
    rw [hplanned, List.mem_append, List.mem_map] at h
    refine h.imp_right ?_
    rintro ⟨planned, hmem, heq⟩
    obtain rfl : planned = suggestion := congrArg Prod.snd heq
    cases notice with
    | changed uri changes =>
      obtain rfl := (server.documents.eq_of_changed (changed_of_mem_suggestions hmem)).1
      exact ⟨changes, rfl, hmem⟩
    | ready | opened uri text | closed uri | saved uri | filesChanged events | renamed pairs
    | configured all => cases hmem

/-- Every planned suggestion stems from an edit. -/
theorem exists_plans {server : Server σ} (hplanned : server.planned = []) {events : List Event}
    {time : Nat} {suggestion : Suggestion}
    (h : (time, suggestion) ∈ (server.run events).planned) :
    ∃ earlier event between, events = earlier ++ event :: between ∧
      (server.run earlier).Plans event suggestion := by
  induction events using List.reverseRecOn with
  | nil =>
    rw [show (server.run []).planned = [] from hplanned] at h
    cases h
  | append_singleton events last ih =>
    rw [run_concat] at h
    rcases planned_step h with h | h
    · obtain ⟨earlier, event, between, rfl, hplans⟩ := ih h
      exact ⟨earlier, event, between ++ [last], by simp, hplans⟩
    · exact ⟨events, last, [], rfl, h⟩

/-- An edit that plans a suggestion gives it its number. -/
theorem Plans.edits {server : Server σ} {event : Event} {suggestion : Suggestion}
    (h : server.Plans event suggestion) :
    suggestion.edit ≠ 0 ∧
      (server.step event).documents.edits.get? suggestion.uri = some suggestion.edit := by
  obtain ⟨changes, rfl, hmem⟩ := h
  obtain ⟨-, hne, hedits⟩ := server.documents.eq_of_changed (changed_of_mem_suggestions hmem)
  have hstep : (server.step (.notice (.changed suggestion.uri changes))).documents = _ :=
    (server.heeded_heed _).documents
  rw [hstep]
  exact ⟨hne, hedits⟩

/-- The number of a suggestion is that of its document exactly when the document was not touched
after its edit, or was closed and edited as often again. -/
theorem Plans.current_iff {server : Server σ} {event : Event} {suggestion : Suggestion}
    (h : server.Plans event suggestion) (between : List Event) :
    let start := server.step event
    (start.run between).documents.edits.get? suggestion.uri = some suggestion.edit ↔
      start.Untouched suggestion.uri between ∨
        start.Recounted suggestion.uri suggestion.edit between := by
  intro start
  obtain ⟨hedit, hstart⟩ := h.edits
  constructor
  · intro hcurrent
    by_cases hclosed : .notice (.closed suggestion.uri) ∈ between
    · right
      obtain ⟨since, before, hreverse, hsince⟩ :=
        List.eq_append_cons_of_mem (List.mem_reverse.mpr hclosed)
      have hbetween : between =
          before.reverse ++ .notice (.closed suggestion.uri) :: since.reverse := by
        simpa using congrArg List.reverse hreverse
      have hsince' : .notice (.closed suggestion.uri) ∉ since.reverse :=
        fun hmem => hsince (List.mem_reverse.mp hmem)
      rw [hbetween, run_append] at hcurrent
      exact ⟨before.reverse, since.reverse, hbetween, hsince',
        (edits_run_closed _ hsince' hedit).mp hcurrent⟩
    · left
      refine ⟨hclosed, ?_⟩
      rw [start.edits_run hclosed, hstart] at hcurrent
      split at hcurrent
      · assumption
      · simp only [Option.getD_some, Option.some.injEq] at hcurrent
        omega
  · rintro (⟨hclosed, hnone⟩ | ⟨before, since, rfl, hsince, hcount⟩)
    · rw [start.edits_run hclosed, if_pos hnone]
      exact hstart
    · rw [run_append]
      exact (edits_run_closed _ hsince hedit).mpr hcount

/-- A suggestion is only sent at its time, when it is wanted. -/
theorem sent_step_iff (server : Server σ) (event : Event) (uri : Uri) (cursor : Point) :
    (server.step event).sent = server.sent ++ [.suggest uri cursor] ↔
      ∃ place time suggestion, event = .due place ∧
        server.planned[place]? = some (time, suggestion) ∧ suggestion.uri = uri ∧
          suggestion.cursor = cursor ∧ server.documents.wants suggestion = true := by
  have hself : server.sent ≠ server.sent ++ [.suggest uri cursor] := by simp
  cases event with
  | wait milliseconds =>
    refine ⟨fun h => absurd h hself, ?_⟩
    rintro ⟨_, _, _, h, -⟩
    cases h
  | notice notice =>
    obtain ⟨more, hsent, hmore⟩ := (server.heeded_heed notice).sent
    have hstep : (server.step (.notice notice)).sent = server.sent ++ more := hsent
    rw [hstep]
    constructor
    · intro h
      exact absurd (List.append_cancel_left h ▸ List.mem_singleton_self _) (hmore uri cursor)
    · rintro ⟨_, _, _, h, -⟩
      cases h
  | due place =>
    cases hplanned : server.planned[place]? with
    | none =>
      rw [step_due_of_eq_none hplanned]
      refine ⟨fun h => absurd h hself, ?_⟩
      rintro ⟨other, time, suggestion, heq, hother, -⟩
      cases heq
      rw [hplanned] at hother
      cases hother
    | some planned =>
      have hsent : (server.step (.due place)).sent =
          if server.documents.wants planned.2 = true then
            server.sent ++ [.suggest planned.2.uri planned.2.cursor]
          else server.sent := by
        rw [step_due hplanned]
        simp only
        split <;> rfl
      rw [hsent]
      constructor
      · intro h
        split at h
        · obtain ⟨huri, hcursor⟩ : planned.2.uri = uri ∧ planned.2.cursor = cursor := by
            simpa using h
          exact ⟨place, planned.1, planned.2, rfl, hplanned, huri, hcursor, ‹_›⟩
        · exact absurd h hself
      · rintro ⟨other, time, suggestion, heq, hother, rfl, rfl, hwants⟩
        cases heq
        rw [hplanned] at hother
        cases hother
        rw [if_pos hwants]

/-- In every run of a server on which no suggestion is planned at first, a suggestion is sent at the
time of a planned one and else never. It then stems from an edit, its cursor is in a link of the
text of its document, which may be unfinished, and since any edit that it may stem from its document
was not touched, or was closed and edited as often again. These conditions are enough. -/
theorem run_suggests_iff {server : Server σ} (hplanned : server.planned = [])
    (events : List Event) (event : Event) (uri : Uri) (cursor : Point) :
    let after := server.run events
    (after.step event).sent = after.sent ++ [.suggest uri cursor] ↔
      ∃ place time suggestion, event = .due place ∧
        after.planned[place]? = some (time, suggestion) ∧ suggestion.uri = uri ∧
        suggestion.cursor = cursor ∧
        (∃ text link, after.documents.texts.get? uri = some text ∧
          Link.atPointOrOpen? text cursor = some link) ∧
        (∃ earlier edit between, events = earlier ++ edit :: between ∧
          (server.run earlier).Plans edit suggestion) ∧
        ∀ earlier edit between, events = earlier ++ edit :: between →
          (server.run earlier).Plans edit suggestion →
            let start := (server.run earlier).step edit
            start.Untouched uri between ∨ start.Recounted uri suggestion.edit between := by
  intro after
  have hafter : ∀ {earlier edit between}, events = earlier ++ edit :: between →
      after = ((server.run earlier).step edit).run between := by
    rintro earlier edit between rfl
    exact server.run_append earlier (edit :: between)
  rw [sent_step_iff]
  constructor
  · rintro ⟨place, time, suggestion, rfl, hplace, rfl, rfl, hwants⟩
    obtain ⟨hcurrent, hlink⟩ := (after.documents.wants_iff suggestion).mp hwants
    refine ⟨place, time, suggestion, rfl, hplace, rfl, rfl, hlink,
      exists_plans hplanned (List.mem_of_getElem? hplace), ?_⟩
    intro earlier edit between hevents hplans
    rw [hafter hevents] at hcurrent
    exact (hplans.current_iff between).mp hcurrent
  · rintro ⟨place, time, suggestion, rfl, hplace, rfl, rfl, hlink,
      ⟨earlier, edit, between, hevents, hplans⟩, hall⟩
    have hcurrent := (hplans.current_iff between).mpr (hall earlier edit between hevents hplans)
    rw [← hafter hevents] at hcurrent
    exact ⟨place, time, suggestion, rfl, hplace, rfl, rfl,
      (after.documents.wants_iff suggestion).mpr ⟨hcurrent, hlink⟩⟩

/-- The URI of a document. -/
def bufferUri : Uri :=
  ⟨"file".toList, some [], "/ws/x.md".toList, []⟩

/-- Opens the document with an unfinished link. -/
def openLink : Event :=
  .notice (.opened bufferUri "[[".toList)

/-- Types some text into the link. -/
def typeInLink (text : String) : Event :=
  .notice (.changed bufferUri [⟨some (.onLine 0 2 2), text.toList⟩])

/-- A suggestion that is sent after a single edit stems from it, and the document is untouched
since. -/
theorem run_suggests_iff_single :
    let server : Server MemoryFiles := { files := { files := [] } }
    let start := (server.run [openLink]).step (typeInLink "a")
    let after := server.run [openLink, typeInLink "a", .wait 100]
    (after.step (.due 0)).sent = [.suggest bufferUri ⟨0, 3⟩] ∧
      start.Untouched bufferUri [.wait 100] := by
  intro server start after
  have hsent : (after.step (.due 0)).sent = after.sent ++ [.suggest bufferUri ⟨0, 3⟩] := by
    decide +kernel
  refine ⟨hsent, ?_⟩
  obtain ⟨place, time, suggestion, hdue, hplace, huri, -, -, -, hall⟩ :=
    (run_suggests_iff rfl [openLink, typeInLink "a", .wait 100] (.due 0) bufferUri ⟨0, 3⟩).mp hsent
  cases hdue
  have hplanned : after.planned[0]? = some (100, ⟨bufferUri, 1, ⟨0, 3⟩⟩) := by decide +kernel
  obtain rfl : ⟨bufferUri, 1, ⟨0, 3⟩⟩ = suggestion :=
    congrArg Prod.snd (Option.some.inj (hplanned.symm.trans hplace))
  have hplans : (server.run [openLink]).Plans (typeInLink "a") ⟨bufferUri, 1, ⟨0, 3⟩⟩ :=
    ⟨_, rfl, by decide +kernel⟩
  rcases hall [openLink] (typeInLink "a") [.wait 100] rfl hplans with huntouched | hrecounted
  · exact huntouched
  · obtain ⟨before, since, hsplit, -⟩ := hrecounted
    have hclosed : .notice (.closed bufferUri) ∈ [Event.wait 100] :=
      hsplit ▸ List.mem_append_right before List.mem_cons_self
    cases List.mem_singleton.mp hclosed

/-- A document is closed and opened again while a suggestion for it is planned, and is then edited.
The number of the new edit is that of the old one, whose suggestion is sent, though the document was
closed, opened and edited since. -/
theorem run_suggests_superseded :
    let server : Server MemoryFiles := { files := { files := [] } }
    let events := [openLink, typeInLink "a", .wait 50, .notice (.closed bufferUri), openLink,
      typeInLink "bc", .wait 50]
    let after := server.run events
    after.planned =
        [(100, ⟨bufferUri, 1, ⟨0, 3⟩⟩), (150, ⟨bufferUri, 1, ⟨0, 4⟩⟩)] ∧
      (after.step (.due 0)).sent = after.sent ++ [.suggest bufferUri ⟨0, 3⟩] := by
  intro server events after
  exact ⟨by decide +kernel, by decide +kernel⟩

end Server
end LinkedNotes
