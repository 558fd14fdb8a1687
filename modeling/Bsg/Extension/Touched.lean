import Bsg.Extension.Replay

/-!
# Touched problems

The background worker keeps the problems that the user touched in a round, with the key of the round
(`markProblemTouched` and `resetTouchedProblems` in `extension/background.js`; it takes one request
after the other). A reset with the key that is stored does nothing, so that a join that is sent
again does not clear the list. It is compared with the last key only: a join of an earlier round in
the same history clears the list, and so does the join of the current round after it
(`touched_kept_iff`).
-/

namespace Bsg.Extension

open Bsg.Foundations Bsg.Rtc Panel

/-- What the worker keeps in `chrome.storage.session`. -/
structure TouchedStore where
  /-- `touchedSlugs` -/
  touched : List String
  /-- `touchedSlugsRound` -/
  round : Option String
  deriving DecidableEq, Repr

namespace TouchedStore

/-- `markProblemTouched` -/
def markProblemTouched (w : TouchedStore) (slug : String) : TouchedStore :=
  if slug = "" then w
  else if slug ∈ w.touched then w
  else { w with touched := w.touched ++ [slug] }

/-- `resetTouchedProblems` -/
def resetTouchedProblems (w : TouchedStore) (roundKey : String) : TouchedStore :=
  if w.round = some roundKey then w else ⟨[], some roundKey⟩

/-- A request to the worker. -/
def handle (w : TouchedStore) : WorkerRequest → TouchedStore
  | .problemProgressReset roundKey => w.resetTouchedProblems roundKey
  | .problemTouched slug => w.markProblemTouched slug

/-- The requests in the order in which the worker takes them. -/
def handleAll (w : TouchedStore) (requests : List WorkerRequest) : TouchedStore :=
  requests.foldl handle w

/-- Without requests the worker does nothing. -/
@[simp] theorem handleAll_nil (w : TouchedStore) : w.handleAll [] = w := rfl

/-- The worker handles the first request first. -/
@[simp] theorem handleAll_cons (w : TouchedStore) (r : WorkerRequest) (rs : List WorkerRequest) :
    w.handleAll (r :: rs) = (w.handle r).handleAll rs := rfl

/-- Touching a problem leaves the round. -/
@[simp] theorem round_markProblemTouched (w : TouchedStore) (slug : String) :
    (w.markProblemTouched slug).round = w.round := by
  unfold markProblemTouched
  split
  · rfl
  · split <;> rfl

/-- A reset with the stored key does nothing. -/
theorem resetTouchedProblems_of_eq {w : TouchedStore} {key : String} (h : w.round = some key) :
    w.resetTouchedProblems key = w := if_pos h

/-- Resets with the stored key do nothing. -/
theorem handleAll_resets_of_forall {w : TouchedStore} {keys : List String}
    (h : ∀ key ∈ keys, w.round = some key) :
    w.handleAll (keys.map .problemProgressReset) = w := by
  induction keys with
  | nil => rfl
  | cons key keys ih =>
    obtain ⟨hkey, hkeys⟩ := List.forall_mem_cons.mp h
    rw [List.map_cons, handleAll_cons, handle, resetTouchedProblems_of_eq hkey, ih hkeys]

/-- Resets bring nothing back. -/
theorem touched_handleAll_resets_of_nil {w : TouchedStore} (h : w.touched = []) (keys : List String) :
    (w.handleAll (keys.map .problemProgressReset)).touched = [] := by
  induction keys generalizing w with
  | nil => exact h
  | cons key keys ih =>
    refine ih (w := w.resetTouchedProblems key) ?_
    unfold resetTouchedProblems
    split
    · exact h
    · rfl

/-- A reset with another key clears the list. -/
theorem touched_handleAll_resets_of_other {w : TouchedStore} {keys : List String}
    (h : ¬ ∀ key ∈ keys, w.round = some key) :
    (w.handleAll (keys.map .problemProgressReset)).touched = [] := by
  induction keys generalizing w with
  | nil => simp at h
  | cons key keys ih =>
    rw [List.map_cons, handleAll_cons, handle]
    by_cases hkey : w.round = some key
    · rw [resetTouchedProblems_of_eq hkey]
      exact ih fun hkeys => h (List.forall_mem_cons.mpr ⟨hkey, hkeys⟩)
    · rw [resetTouchedProblems, if_neg hkey]
      exact touched_handleAll_resets_of_nil rfl keys

/-- After resets the last key is stored. -/
theorem round_handleAll_resets (w : TouchedStore) (keys : List String) :
    (w.handleAll (keys.map .problemProgressReset)).round = keys.getLast?.or w.round := by
  induction keys generalizing w with
  | nil => rfl
  | cons key keys ih =>
    have hkey : (w.resetTouchedProblems key).round = some key := by
      unfold resetTouchedProblems
      split
      · assumption
      · rfl
    rw [List.map_cons, handleAll_cons, handle, ih, hkey, List.getLast?_cons]
    cases keys.getLast? <;> rfl

/-! ## Resets among reports -/

/-- Whether a request is a reset. -/
def isReset : WorkerRequest → Bool
  | .problemProgressReset _ => true
  | .problemTouched _ => false

/-- Resets with the stored key are as good as none, wherever they stand among reports. -/
theorem handleAll_of_forall {w : TouchedStore} {keys : List String}
    (h : ∀ key ∈ keys, w.round = some key) {q : List WorkerRequest}
    (hq : q.filter isReset = keys.map .problemProgressReset) :
    w.handleAll q = w.handleAll (q.filter fun r => !isReset r) := by
  have hkeys : ∀ key, .problemProgressReset key ∈ q → w.round = some key := by
    intro key hmem
    have hreset : WorkerRequest.problemProgressReset key ∈ q.filter isReset :=
      List.mem_filter.mpr ⟨hmem, rfl⟩
    rw [hq] at hreset
    obtain ⟨key', hkey', heq⟩ := List.mem_map.mp hreset
    cases heq
    exact h _ hkey'
  clear hq h
  induction q generalizing w with
  | nil => rfl
  | cons r q ih =>
    cases r with
    | problemProgressReset key =>
      rw [handleAll_cons, handle, resetTouchedProblems_of_eq (hkeys key List.mem_cons_self)]
      exact ih fun key' hmem => hkeys key' (List.mem_cons_of_mem _ hmem)
    | problemTouched slug =>
      refine ih (w := w.markProblemTouched slug) fun key' hmem => ?_
      rw [round_markProblemTouched]
      exact hkeys key' (List.mem_cons_of_mem _ hmem)

/-- A reset with another key loses a report that stands before it. -/
theorem exists_lost_report {w : TouchedStore} {keys : List String}
    (h : ¬ ∀ key ∈ keys, w.round = some key) :
    ∃ q : List WorkerRequest, q.filter isReset = keys.map .problemProgressReset ∧
      w.handleAll q ≠ w.handleAll (q.filter fun r => !isReset r) := by
  -- A report before the resets is lost when one of them is for another round.
  refine ⟨.problemTouched "two-sum" :: keys.map .problemProgressReset, ?_, fun heq => ?_⟩
  · rw [List.filter_cons_of_neg (by simp [isReset])]
    exact List.filter_eq_self.mpr fun r hr => by
      obtain ⟨key, -, rfl⟩ := List.mem_map.mp hr
      rfl
  · have hreports : ((keys.map WorkerRequest.problemProgressReset).filter fun r => !isReset r) = [] :=
      List.filter_eq_nil_iff.mpr fun r hr => by
        obtain ⟨key, -, rfl⟩ := List.mem_map.mp hr
        simp [isReset]
    have hmarked : "two-sum" ∈ (w.markProblemTouched "two-sum").touched := by
      unfold markProblemTouched
      split
      · rename_i hempty
        exact absurd hempty (by decide)
      · split
        · assumption
        · simp
    rw [handleAll_cons, handle, List.filter_cons_of_pos (by simp [isReset]), hreports,
      handleAll_cons, handle, handleAll_nil] at heq
    rw [← heq, touched_handleAll_resets_of_other (by rwa [round_markProblemTouched])] at hmarked
    cases hmarked

end TouchedStore

namespace Panel

/-- The keys of the rounds that the messages of a room put a user into. -/
def joinedKeys (userId : GoText) (roomId : String) (resps : List Response) : List String :=
  (resps.filter (ownRound userId)).map fun resp => roundKey roomId (roundData resp.respMessage.data)

/-- The panel asks for a reset for each round that it joins. -/
theorem resets_eq (userId : GoText) (roomId : String) (resps : List Response) :
    resets userId roomId resps =
      (joinedKeys userId roomId resps).map .problemProgressReset := by
  simp [resets, joinedKeys, Function.comp_def]

/-- The worker keeps what it has, when a panel joins a room and reads what it is sent, exactly when
every join of the user to a round in progress, of those that the room keeps, was to the round whose
key is stored; or nothing was touched, and the last such join was. The former is also what keeps
every report, wherever the resets stand among reports. -/
theorem touched_kept_iff (es : List ServerEvent) {roomId : String} {room : HistoryRoom}
    (hroom : (run Server.step .start es).rooms roomId = some room) {p : Panel}
    (hid : p.roomId = some roomId) {userName : GoText} {msg : Inbound}
    (hmsg : p.joinRoomMessage userName = some msg) (m : Moment) (conn : ℕ)
    {ms : List (ℤ × Response)}
    (hms : ms.map Prod.snd = sentTo conn ((run Server.step .start es).receive m conn msg).2)
    (w : TouchedStore) {requests : List WorkerRequest}
    (hrequests : (p.onMessages ms).requests = p.requests ++ requests) :
    (w.handleAll requests = w ↔
      (∀ key ∈ joinedKeys p.userId roomId room.messages, w.round = some key) ∨
        w.touched = [] ∧ (joinedKeys p.userId roomId room.messages).getLast? = w.round) ∧
    ((∀ q, q.filter TouchedStore.isReset = requests →
        w.handleAll q = w.handleAll (q.filter fun r => !TouchedStore.isReset r)) ↔
      ∀ key ∈ joinedKeys p.userId roomId room.messages, w.round = some key) := by
  obtain ⟨hreplayed, hown⟩ := read_joinRoom hmsg hid hroom m conn hms
  -- The requests are one reset for each round that the user has joined.
  obtain rfl : requests = (joinedKeys p.userId roomId room.messages).map .problemProgressReset := by
    have hasked := (onMessages_replayed hid hreplayed).2
    rw [hrequests, List.append_cancel_left_eq, resets, hown] at hasked
    rw [hasked, ← resets_eq, resets]
  generalize joinedKeys p.userId roomId room.messages = keys
  refine ⟨⟨fun hkept => ?_, ?_⟩, fun hall => ?_, fun h q hq => TouchedStore.handleAll_of_forall h hq⟩
  · -- The list stays when there was nothing in it or no reset was for another round.
    by_cases h : ∀ key ∈ keys, w.round = some key
    · exact Or.inl h
    · have htouched := TouchedStore.touched_handleAll_resets_of_other h
      have hround := w.round_handleAll_resets keys
      rw [hkept] at htouched hround
      refine Or.inr ⟨htouched, ?_⟩
      cases hlast : keys.getLast? with
      | none =>
        rw [List.getLast?_eq_none_iff] at hlast
        simp [hlast] at h
      | some key => rw [hround, hlast, Option.some_or]
  · rintro (h | ⟨htouched, hlast⟩)
    · exact TouchedStore.handleAll_resets_of_forall h
    · have htouched' := TouchedStore.touched_handleAll_resets_of_nil htouched keys
      have hround := w.round_handleAll_resets keys
      rw [hlast, Option.or_self] at hround
      generalize w.handleAll (keys.map .problemProgressReset) = w' at htouched' hround
      obtain ⟨touched, round⟩ := w
      obtain ⟨touched', round'⟩ := w'
      simp only at htouched htouched' hround
      rw [htouched, htouched', hround]
  · by_contra h
    obtain ⟨q, hq, hne⟩ := TouchedStore.exists_lost_report h
    exact hne (hall q hq)

/-! ## Two rounds -/

/-- A second round, which alice joins as well. -/
def twoRounds : List ServerEvent :=
  finishedRound ++
    [.receive (.plain 6000) 0
        (.request centralServiceName (.of (.roundStart "room" ["two-sum"] 6 30))),
      .receive (.plain 7000) 0
        (.request centralServiceName (.of (.joinRound "room" (utf8 "alice") [])))]

/-- What alice's panel reads when it is loaded again in the second round. -/
def twoReplays : List (ℤ × Response) :=
  readAt 8000 (sentTo 2 ((run Server.step .start twoRounds).receive (.plain 8000) 2 rejoin).2)

/-- What alice touched in the second round. -/
def touchedInSecond : TouchedStore := ⟨["two-sum"], some "room|6"⟩

/-- The join of the first round clears what was touched in the second. -/
theorem touched_lost :
    touchedInSecond.handleAll ((loadedPanel (utf8 "alice")).onMessages twoReplays).requests =
        ⟨[], some "room|6"⟩ ∧
      ¬ touchedInSecond.handleAll ((loadedPanel (utf8 "alice")).onMessages twoReplays).requests =
        touchedInSecond := by
  decide +kernel

/-- With one round in the history, the worker keeps what was touched in it. -/
theorem touched_kept_first :
    (⟨["two-sum"], some "room|2"⟩ : TouchedStore).handleAll
        ((loadedPanel (utf8 "alice")).onMessages finishedReplay).requests =
      ⟨["two-sum"], some "room|2"⟩ :=
  (touched_kept_iff finishedRound (Option.some_get (by decide +kernel)).symm rfl
    (by decide +kernel : (loadedPanel (utf8 "alice")).joinRoomMessage [] = some rejoin) (.plain 5000) 2
    (map_readAt 5000 _) ⟨["two-sum"], some "room|2"⟩ (List.nil_append _).symm).1.mpr
    (Or.inl (by decide +kernel))

end Panel

end Bsg.Extension
