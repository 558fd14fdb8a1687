import Bsg.Extension.Pending

/-!
# The stages of a submission

As long as no handler gets in the way of another, a submission goes through four stages: it waits to
be stored (`Waiting`), it is stored (`Stored`), the handler of a result has found it and its removal
has yet to be stored (`Taking`), and it is gone (`Taken`). A step is about one submission, so that
the others stay where they are (`Same`). In every stage what was sent is right: each accepted
submission is sent exactly once, in every interleaving (`postedOnce_of_undisturbed`). `lostUpdate`
and `sentTwice` are runs in which a handler gets in the way.
-/

namespace Bsg.Extension.Background

open Bsg.Foundations

/-! ## The stages of a submission -/

/-- The messages are in order. -/
structure Roster (s : Background) : Prop where
  one_sender : ∀ i j id, s.Sends i id → s.Sends j id → i = j
  sender : ∀ i r id, s.Reports i r id → ∃ j, s.Sends j id
  one_status : ∀ i j r r' id, s.Reports i r id → s.Reports j r' id → r.statusMsg = r'.statusMsg

/-- The submission is stored by now. -/
def Landed (s : Background) (id : String) : Prop :=
  (∃ i, s.Sends i id) ∧ ∀ i, s.Sends i id → s.phase i = .done

/-- The submission is not stored yet. -/
structure Waiting (s : Background) (id : String) : Prop where
  absent : s.pendingSubmissions id = none
  unsent : s.sent id = 0
  sender : ∀ i, s.Sends i id →
    s.phase i ≠ .done ∧ ∀ pending, s.phase i = .writing pending → pending id ≠ none
  unread : ∀ i r, s.Reports i r id → s.phase i = .received

/-- The submission is stored, and at most one result of it is being looked at. -/
structure Stored (s : Background) (id : String) : Prop where
  present : s.pendingSubmissions id ≠ none
  unsent : s.sent id = 0
  landed : s.Landed id
  reading : ∀ i r, s.Reports i r id →
    s.phase i = .received ∨ ∃ pending, s.phase i = .read pending ∧ pending id ≠ none
  alone : ∀ i j r r', s.Reports i r id → s.Reports j r' id →
    s.phase i ≠ .received → s.phase j ≠ .received → i = j

/-- A submission with this result was sent once if it had to be: unless it is not accepted, or the
round is over and no result of it came in time. -/
def Handled (s : Background) (r : SubmissionResult) (id : String) : Prop :=
  s.sent id = 1 ∨ s.sent id = 0 ∧ (r.Accepted →
    expired s.roundEndTime s.now = true ∧ ∀ j r', s.Reports j r' id → s.inTime j = false)

/-- The handler of a result has found the entry, and its removal has yet to be stored. -/
structure Taking (s : Background) (i : ℕ) (r : SubmissionResult) (id : String) : Prop where
  present : s.pendingSubmissions id ≠ none
  landed : s.Landed id
  reports : s.Reports i r id
  writing : ∃ pending, s.phase i = .writing pending ∧ pending id = none
  unread : ∀ j r', s.Reports j r' id → j ≠ i → s.phase j = .received
  handled : s.Handled r id

/-- A result was handled, and the entry is gone. -/
structure Taken (s : Background) (r : SubmissionResult) (id : String) : Prop where
  absent : s.pendingSubmissions id = none
  landed : s.Landed id
  reports : ∃ i, s.Reports i r id
  settled : ∀ j r', s.Reports j r' id →
    s.phase j = .received ∨ s.phase j = .done ∨
      ∃ pending, s.phase j = .read pending ∧ pending id = none
  handled : s.Handled r id

/-- A submission goes through four stages. -/
inductive Stage (s : Background) (id : String) : Prop where
  | waiting (h : s.Waiting id)
  | stored (h : s.Stored id)
  | taking (i : ℕ) (r : SubmissionResult) (h : s.Taking i r id)
  | taken (r : SubmissionResult) (h : s.Taken r id)

/-- An accepted submission whose result came in time was sent once. -/
theorem Handled.once {s : Background} {r r' : SubmissionResult} {id : String} {i : ℕ}
    (h : s.Handled r id) (hstatus : r.statusMsg = r'.statusMsg) (hreports : s.Reports i r' id)
    (haccepted : r'.Accepted) (hin : s.inTime i = true) : s.sent id = 1 := by
  rcases h with h | ⟨-, h⟩
  · exact h
  · have hlate := (h (hstatus.trans haccepted)).2 i r' hreports
    rw [hlate] at hin
    cases hin

/-- No submission that was handled was sent twice. -/
theorem Handled.le_one {s : Background} {r : SubmissionResult} {id : String}
    (h : s.Handled r id) : s.sent id ≤ 1 := by
  rcases h with h | ⟨h, -⟩ <;> omega

/-- In every stage what was sent is right. -/
theorem Stage.postedOnce {s : Background} (hroster : s.Roster) (h : ∀ id, s.Stage id) :
    s.PostedOnce := by
  intro id
  cases h id with
  | waiting h =>
    refine ⟨by rw [h.unsent]; omega, fun i r hreports _ _ hpast => ?_⟩
    rw [h.unread i r hreports] at hpast
    exact hpast.elim
  | stored h =>
    refine ⟨by rw [h.unsent]; omega, fun i r hreports _ _ hpast => ?_⟩
    rcases h.reading i r hreports with hphase | ⟨pending, hphase, -⟩ <;> rw [hphase] at hpast <;>
      exact hpast.elim
  | taking i r h =>
    refine ⟨h.handled.le_one, fun j r' hreports haccepted hin _ => ?_⟩
    exact h.handled.once (hroster.one_status i j r r' id h.reports hreports) hreports haccepted hin
  | taken r h =>
    obtain ⟨i, hi⟩ := h.reports
    refine ⟨h.handled.le_one, fun j r' hreports haccepted hin _ => ?_⟩
    exact h.handled.once (hroster.one_status i j r r' id hi hreports) hreports haccepted hin

/-! ## Steps that are about another submission -/

/-- Two states that do not differ in what they have of a submission. -/
structure Same (s s' : Background) (id : String) : Prop where
  entry : s'.pendingSubmissions id = s.pendingSubmissions id
  sent : s'.sent id = s.sent id
  message : ∀ i m, m.submissionId = id → (s'.message i = some m ↔ s.message i = some m)
  inTime : ∀ i m, s.message i = some m → m.submissionId = id → s'.inTime i = s.inTime i
  expired : expired s.roundEndTime s.now = true → expired s'.roundEndTime s'.now = true
  phase : ∀ i m, s.message i = some m → m.submissionId = id → s'.phase i = s.phase i

namespace Same

variable {s s' : Background} {id : String}

/-- The same messages announce the submission. -/
theorem sends_iff (h : Same s s' id) (i : ℕ) : s'.Sends i id ↔ s.Sends i id :=
  exists_congr fun data => and_congr_left fun hid => h.message i (.pending data) hid

/-- The same messages report its result. -/
theorem reports_iff (h : Same s s' id) (i : ℕ) (r : SubmissionResult) :
    s'.Reports i r id ↔ s.Reports i r id :=
  and_congr_left fun hid => h.message i (.result r) hid

/-- The messages that announce the submission are where they were. -/
theorem phase_sends (h : Same s s' id) {i : ℕ} (hi : s.Sends i id) : s'.phase i = s.phase i := by
  obtain ⟨data, hmessage, hid⟩ := hi
  exact h.phase i _ hmessage hid

/-- So are those that report its result. -/
theorem phase_reports (h : Same s s' id) {i : ℕ} {r : SubmissionResult} (hi : s.Reports i r id) :
    s'.phase i = s.phase i := h.phase i _ hi.1 hi.2

/-- The submission is still stored. -/
theorem landed (h : Same s s' id) (hl : s.Landed id) : s'.Landed id := by
  obtain ⟨⟨i, hi⟩, hdone⟩ := hl
  refine ⟨⟨i, (h.sends_iff i).mpr hi⟩, fun j hj => ?_⟩
  rw [h.sends_iff] at hj
  rw [h.phase_sends hj]
  exact hdone j hj

/-- The submission is still handled. -/
theorem handled (h : Same s s' id) {r : SubmissionResult} (hr : s.Handled r id) :
    s'.Handled r id := by
  unfold Handled
  rw [h.sent]
  refine hr.imp_right fun ⟨hzero, hlate⟩ => ⟨hzero, fun haccepted => ?_⟩
  obtain ⟨hexpired, hin⟩ := hlate haccepted
  refine ⟨h.expired hexpired, fun j r' hj => ?_⟩
  rw [h.reports_iff] at hj
  rw [h.inTime j _ hj.1 hj.2]
  exact hin j r' hj

/-- What is the same is in the same stage. -/
theorem stage (h : Same s s' id) (hstage : s.Stage id) : s'.Stage id := by
  cases hstage with
  -- Each stage speaks of the handlers of this submission, which are as far as before.
  | waiting hw =>
    refine .waiting ⟨h.entry.trans hw.absent, h.sent.trans hw.unsent, fun i hi => ?_,
      fun i r hi => ?_⟩
    · rw [h.sends_iff] at hi
      rw [h.phase_sends hi]
      exact hw.sender i hi
    · rw [h.reports_iff] at hi
      rw [h.phase_reports hi]
      exact hw.unread i r hi
  | stored hs =>
    refine .stored ⟨by rw [h.entry]; exact hs.present, h.sent.trans hs.unsent, h.landed hs.landed,
      fun i r hi => ?_, fun i j r r' hi hj hpi hpj => ?_⟩
    · rw [h.reports_iff] at hi
      rw [h.phase_reports hi]
      exact hs.reading i r hi
    · rw [h.reports_iff] at hi hj
      rw [h.phase_reports hi] at hpi
      rw [h.phase_reports hj] at hpj
      exact hs.alone i j r r' hi hj hpi hpj
  | taking i r ht =>
    refine .taking i r ⟨by rw [h.entry]; exact ht.present, h.landed ht.landed,
      (h.reports_iff i r).mpr ht.reports, ?_, fun j r' hj hne => ?_, h.handled ht.handled⟩
    · rw [h.phase_reports ht.reports]
      exact ht.writing
    · rw [h.reports_iff] at hj
      rw [h.phase_reports hj]
      exact ht.unread j r' hj hne
  | taken r ht =>
    obtain ⟨i, hi⟩ := ht.reports
    refine .taken r ⟨h.entry.trans ht.absent, h.landed ht.landed,
      ⟨i, (h.reports_iff i r).mpr hi⟩, fun j r' hj => ?_, h.handled ht.handled⟩
    rw [h.reports_iff] at hj
    rw [h.phase_reports hj]
    exact ht.settled j r' hj

/-- Two steps that do not concern the submission. -/
theorem trans {s'' : Background} (h : Same s s' id) (h' : Same s' s'' id) : Same s s'' id where
  entry := h'.entry.trans h.entry
  sent := h'.sent.trans h.sent
  message i m hid := (h'.message i m hid).trans (h.message i m hid)
  inTime i m hm hid := by
    rw [h'.inTime i m ((h.message i m hid).mpr hm) hid, h.inTime i m hm hid]
  expired he := h'.expired (h.expired he)
  phase i m hm hid := by
    rw [h'.phase i m ((h.message i m hid).mpr hm) hid, h.phase i m hm hid]

end Same

/-- A handler's own progress is of no concern to other submissions. -/
theorem same_setPhase {s : Background} {i : ℕ} {m : SubmissionMessage} (hm : s.message i = some m)
    {id : String} (hne : id ≠ m.submissionId) (p : Phase) : Same s (s.setPhase i p) id where
  entry := rfl
  sent := rfl
  message _ _ _ := Iff.rfl
  inTime _ _ _ _ := rfl
  expired h := h
  phase j m' hm' hid := by
    have hji : j ≠ i := by
      rintro rfl
      rw [hm] at hm'
      cases hm'
      exact hne hid.symm
    exact Function.update_of_ne hji _ _

/-! ## Receiving -/

section Receive

variable {s : Background} {i : ℕ} {m : SubmissionMessage}

/-- A message that is looked at waits for storage. -/
theorem receive_eq (hok : s.Undisturbed (.receive i m)) :
    s.receive i m = { s with
      message := Function.update s.message i (some m)
      inTime := Function.update s.inTime i (!expired s.roundEndTime s.now)
      phase := Function.update s.phase i .received } := by
  cases m with
  | pending data => exact if_pos hok
  | result r => rfl

/-- A message that comes in is known by its number. -/
theorem message_receive (hok : s.Undisturbed (.receive i m)) :
    (s.receive i m).message = Function.update s.message i (some m) := by rw [receive_eq hok]

/-- No other message comes in with it. -/
theorem message_receive_iff (hfree : s.message i = none) (hok : s.Undisturbed (.receive i m))
    {j : ℕ} {m' : SubmissionMessage} :
    (s.receive i m).message j = some m' ↔ s.message j = some m' ∨ j = i ∧ m' = m := by
  rw [message_receive hok]
  by_cases hji : j = i
  · subst hji
    rw [Function.update_self, hfree, Option.some.injEq, eq_comm (a := m)]
    simp
  · rw [Function.update_of_ne hji]
    simp [hji]

/-- A message that announces a submission was there, or is the one that comes in. -/
theorem sends_receive (hfree : s.message i = none) (hok : s.Undisturbed (.receive i m)) {j : ℕ}
    {id : String} (hj : (s.receive i m).Sends j id) :
    s.Sends j id ∨ j = i ∧ ∃ data, m = .pending data ∧ data.submissionId = id := by
  obtain ⟨data, hmessage, hid⟩ := hj
  rcases (message_receive_iff hfree hok).mp hmessage with h | ⟨hji, hm⟩
  · exact Or.inl ⟨data, h, hid⟩
  · exact Or.inr ⟨hji, data, hm.symm, hid⟩

/-- So is a message that reports a result. -/
theorem reports_receive (hfree : s.message i = none) (hok : s.Undisturbed (.receive i m)) {j : ℕ}
    {r : SubmissionResult} {id : String} (hj : (s.receive i m).Reports j r id) :
    s.Reports j r id ∨ j = i ∧ m = .result r ∧ r.submissionId = id := by
  obtain ⟨hmessage, hid⟩ := hj
  rcases (message_receive_iff hfree hok).mp hmessage with h | ⟨hji, hm⟩
  · exact Or.inl ⟨h, hid⟩
  · exact Or.inr ⟨hji, hm.symm, hid⟩

/-- The messages stay in order. -/
theorem roster_receive (hroster : s.Roster) (hfree : s.message i = none)
    (horder : s.InOrder (.receive i m)) (hok : s.Undisturbed (.receive i m)) :
    (s.receive i m).Roster where
  one_sender j j' id hj hj' := by
    -- A pending message that comes in is the first one of its submission.
    rcases sends_receive hfree hok hj with hold | ⟨rfl, data, rfl, hid⟩
    · rcases sends_receive hfree hok hj' with hold' | ⟨rfl, data, rfl, hid⟩
      · exact hroster.one_sender j j' id hold hold'
      · exact absurd (hid ▸ hold) (horder j)
    · rcases sends_receive hfree hok hj' with hold' | ⟨rfl, -⟩
      · exact absurd (hid ▸ hold') (horder j')
      · rfl
  sender j r id hj := by
    have hkeep : ∀ j, s.Sends j id → (s.receive i m).Sends j id := fun j ⟨data, hmessage, hid⟩ =>
      ⟨data, (message_receive_iff hfree hok).mpr (Or.inl hmessage), hid⟩
    rcases reports_receive hfree hok hj with hold | ⟨rfl, rfl, rfl⟩
    · obtain ⟨j', hj'⟩ := hroster.sender j r id hold
      exact ⟨j', hkeep j' hj'⟩
    · -- A result comes after the pending message.
      obtain ⟨j', hj'⟩ := horder
      exact ⟨j', hkeep j' hj'⟩
  one_status j j' r r' id hj hj' := by
    rcases reports_receive hfree hok hj with hold | ⟨rfl, rfl, rfl⟩
    · rcases reports_receive hfree hok hj' with hold' | ⟨rfl, rfl, rfl⟩
      · exact hroster.one_status j j' r r' id hold hold'
      · -- Two results of one submission say the same.
        exact hok j r hold
    · rcases reports_receive hfree hok hj' with hold' | ⟨rfl, heq, -⟩
      · exact (hok j' r' hold').symm
      · cases heq
        rfl

/-- A message is of no concern to other submissions. -/
theorem same_receive (hfree : s.message i = none) (hok : s.Undisturbed (.receive i m)) {id : String}
    (hne : id ≠ m.submissionId) : Same s (s.receive i m) id := by
  have hother : ∀ j m', s.message j = some m' → j ≠ i := by
    rintro j m' hm' rfl
    rw [hfree] at hm'
    cases hm'
  have hmessage : ∀ j m', m'.submissionId = id →
      ((s.receive i m).message j = some m' ↔ s.message j = some m') := fun j m' hid =>
    (message_receive_iff hfree hok).trans (or_iff_left fun ⟨_, heq⟩ => hne (heq ▸ hid.symm))
  rw [receive_eq hok] at hmessage ⊢
  exact ⟨rfl, rfl, hmessage, fun j m' hm' _ => Function.update_of_ne (hother j m' hm') _ _,
    fun h => h, fun j m' hm' _ => Function.update_of_ne (hother j m' hm') _ _⟩

/-- The first message about a submission. -/
theorem stage_receive_pending {data : PendingSubmission} (hroster : s.Roster)
    (hfree : s.message i = none) (horder : s.InOrder (.receive i (.pending data)))
    (hok : s.Undisturbed (.receive i (.pending data))) (h : s.Stage data.submissionId) :
    (s.receive i (.pending data)).Stage data.submissionId := by
  have hw : s.Waiting data.submissionId := by
    cases h with
    | waiting h => exact h
    | stored h => exact absurd h.landed.1.choose_spec (horder _)
    | taking j r h => exact absurd h.landed.1.choose_spec (horder _)
    | taken r h => exact absurd h.landed.1.choose_spec (horder _)
  refine .waiting ⟨?_, ?_, fun j hj => ?_, fun j r hj => ?_⟩
  · rw [receive_eq hok]
    exact hw.absent
  · rw [receive_eq hok]
    exact hw.unsent
  · rcases sends_receive hfree hok hj with hold | ⟨rfl, -⟩
    · exact absurd hold (horder j)
    · rw [receive_eq hok]
      simp
  · rcases reports_receive hfree hok hj with hold | ⟨-, heq, -⟩
    · obtain ⟨j', hj'⟩ := hroster.sender j r _ hold
      exact absurd hj' (horder j')
    · cases heq

/-- The handlers of the messages that are there already do not move. -/
theorem phase_receive (hfree : s.message i = none) (hok : s.Undisturbed (.receive i m)) {j : ℕ}
    {m' : SubmissionMessage} (hm' : s.message j = some m') :
    (s.receive i m).phase j = s.phase j := by
  have hji : j ≠ i := by
    rintro rfl
    rw [hfree] at hm'
    cases hm'
  rw [receive_eq hok]
  exact Function.update_of_ne hji _ _

/-- A message that comes in waits to be read. -/
theorem phase_receive_self (hok : s.Undisturbed (.receive i m)) :
    (s.receive i m).phase i = .received := by
  rw [receive_eq hok]
  exact Function.update_self _ _ _

/-- The messages that were there stay. -/
theorem message_receive_of (hfree : s.message i = none) (hok : s.Undisturbed (.receive i m))
    {j : ℕ} {m' : SubmissionMessage} (hm' : s.message j = some m') :
    (s.receive i m).message j = some m' := (message_receive_iff hfree hok).mpr (Or.inl hm')

section Result

variable {r : SubmissionResult} {id : String}

/-- A result is no pending submission. -/
theorem sends_receive_result (hfree : s.message i = none)
    (hok : s.Undisturbed (.receive i (.result r))) {j : ℕ}
    (hj : (s.receive i (.result r)).Sends j id) : s.Sends j id := by
  rcases sends_receive hfree hok hj with hold | ⟨-, data, heq, -⟩
  · exact hold
  · cases heq

/-- A submission that is stored stays so when a result comes in. -/
theorem Landed.receive (h : s.Landed id) (hfree : s.message i = none)
    (hok : s.Undisturbed (.receive i (.result r))) : (s.receive i (.result r)).Landed id := by
  obtain ⟨⟨j, data, hj, hid⟩, hdone⟩ := h
  refine ⟨⟨j, data, message_receive_of hfree hok hj, hid⟩, fun j' hj' => ?_⟩
  have hold := sends_receive_result hfree hok hj'
  have ⟨data', hdata', _⟩ := hold
  rw [phase_receive hfree hok hdata']
  exact hdone j' hold

/-- A result that has been handled stays so when another one comes in, which is too late when that
one was. -/
theorem Handled.receive {r' : SubmissionResult} (h : s.Handled r' id) (hfree : s.message i = none)
    (hok : s.Undisturbed (.receive i (.result r))) :
    (s.receive i (.result r)).Handled r' id := by
  have hsent : (s.receive i (.result r)).sent id = s.sent id := rfl
  unfold Handled
  rw [hsent]
  refine h.imp_right fun ⟨hzero, hlate⟩ => ⟨hzero, fun haccepted => ?_⟩
  obtain ⟨hexpired, hin⟩ := hlate haccepted
  refine ⟨hexpired, fun j r'' hj => ?_⟩
  rw [receive_eq hok]
  rcases reports_receive hfree hok hj with hold | ⟨rfl, -, -⟩
  · have hji : j ≠ i := by
      rintro rfl
      rw [hold.1] at hfree
      cases hfree
    exact (Function.update_of_ne hji _ _).trans (hin j r'' hold)
  · exact (Function.update_self _ _ _).trans (by rw [hexpired]; rfl)

/-- What holds of the handlers of the results that are there, and of one that has not begun, holds
of all of them when one more comes in. -/
theorem forall_reports_receive (hfree : s.message i = none)
    (hok : s.Undisturbed (.receive i (.result r))) {P : Phase → Prop} (hnew : P .received) {j : ℕ}
    {r' : SubmissionResult} (hj : (s.receive i (.result r)).Reports j r' id)
    (hold : s.Reports j r' id → P (s.phase j)) : P ((s.receive i (.result r)).phase j) := by
  rcases reports_receive hfree hok hj with hreports | ⟨rfl, -, -⟩
  · rw [phase_receive hfree hok hreports.1]
    exact hold hreports
  · rw [phase_receive_self hok]
    exact hnew

/-- One more result of a submission leaves it where it is. -/
theorem stage_receive_result (hfree : s.message i = none)
    (hok : s.Undisturbed (.receive i (.result r))) (h : s.Stage r.submissionId) :
    (s.receive i (.result r)).Stage r.submissionId := by
  cases h with
  | waiting hw =>
    -- The new handler has not read anything yet, so no stage changes.
    refine .waiting ⟨hw.absent, hw.unsent, fun j hj => ?_, fun j r' hj => ?_⟩
    · have hold := sends_receive_result hfree hok hj
      have ⟨data, hdata, _⟩ := hold
      rw [phase_receive hfree hok hdata]
      exact hw.sender j hold
    · exact forall_reports_receive hfree hok (P := (· = .received)) rfl hj (hw.unread j r')
  | stored hs =>
    refine .stored ⟨hs.present, hs.unsent, hs.landed.receive hfree hok, fun j r' hj => ?_,
      fun j j' r' r'' hj hj' hpj hpj' => ?_⟩
    · rcases reports_receive hfree hok hj with hold | ⟨rfl, -, -⟩
      · rw [phase_receive hfree hok hold.1]
        exact hs.reading j r' hold
      · exact Or.inl (phase_receive_self hok)
    · -- Two handlers that have read are two old ones.
      rcases reports_receive hfree hok hj with hold | ⟨rfl, -, -⟩
      · rcases reports_receive hfree hok hj' with hold' | ⟨rfl, -, -⟩
        · rw [phase_receive hfree hok hold.1] at hpj
          rw [phase_receive hfree hok hold'.1] at hpj'
          exact hs.alone j j' r' r'' hold hold' hpj hpj'
        · exact absurd (phase_receive_self hok) hpj'
      · exact absurd (phase_receive_self hok) hpj
  | taking j r' ht =>
    refine .taking j r' ⟨ht.present, ht.landed.receive hfree hok,
      ⟨message_receive_of hfree hok ht.reports.1, ht.reports.2⟩, ?_, fun j' r'' hj' hne => ?_,
      ht.handled.receive hfree hok⟩
    · rw [phase_receive hfree hok ht.reports.1]
      exact ht.writing
    · exact forall_reports_receive hfree hok (P := (· = .received)) rfl hj' fun hold =>
        ht.unread j' r'' hold hne
  | taken r' ht =>
    obtain ⟨j, hj⟩ := ht.reports
    refine .taken r' ⟨ht.absent, ht.landed.receive hfree hok,
      ⟨j, message_receive_of hfree hok hj.1, hj.2⟩, fun j' r'' hj' => ?_,
      ht.handled.receive hfree hok⟩
    rcases reports_receive hfree hok hj' with hold | ⟨rfl, -, -⟩
    · rw [phase_receive hfree hok hold.1]
      exact ht.settled j' r'' hold
    · exact Or.inl (phase_receive_self hok)

end Result

end Receive

/-! ## Storage and callbacks -/

section Handle

variable {s : Background} {i : ℕ} {p : Phase} {id : String}

/-- The phase of the message itself. -/
theorem phase_setPhase_self : (s.setPhase i p).phase i = p := Function.update_self _ _ _

/-- The other messages are where they were. -/
theorem phase_setPhase_of_ne {j : ℕ} (h : j ≠ i) : (s.setPhase i p).phase j = s.phase j :=
  Function.update_of_ne h _ _

/-- No message both announces a submission and reports a result. -/
theorem Sends.ne_of_reports {j : ℕ} {r : SubmissionResult} {id' : String} (h : s.Sends j id')
    (hi : s.Reports i r id) : j ≠ i := by
  rintro rfl
  obtain ⟨data, hdata, -⟩ := h
  rw [hi.1] at hdata
  cases hdata

/-- The handler of a result is not one that stores a submission. -/
theorem Landed.setPhase {r : SubmissionResult} {id' : String} (h : s.Landed id)
    (hi : s.Reports i r id') : (s.setPhase i p).Landed id := by
  refine ⟨h.1, fun j hj => ?_⟩
  have hj' : s.Sends j id := hj
  rw [phase_setPhase_of_ne (hj'.ne_of_reports hi)]
  exact h.2 j hj'

/-- As long as the handler of a pending submission is under way, the submission waits. -/
theorem Stage.waiting_of_sends (h : s.Stage id) (hi : s.Sends i id) (hphase : s.phase i ≠ .done) :
    s.Waiting id := by
  cases h with
  | waiting h => exact h
  | stored h => exact absurd (h.landed.2 i hi) hphase
  | taking j r h => exact absurd (h.landed.2 i hi) hphase
  | taken r h => exact absurd (h.landed.2 i hi) hphase

/-- It waits until its handler is done. -/
theorem Waiting.setPhase (h : s.Waiting id) (hi : s.Sends i id) (hdone : p ≠ .done)
    (hwriting : ∀ pending, p = .writing pending → pending id ≠ none) :
    (s.setPhase i p).Waiting id where
  absent := h.absent
  unsent := h.unsent
  sender j hj := by
    by_cases hji : j = i
    · subst hji
      rw [phase_setPhase_self]
      exact ⟨hdone, hwriting⟩
    · rw [phase_setPhase_of_ne hji]
      exact h.sender j hj
  unread j r hj := by
    have hj' : s.Reports j r id := hj
    rw [phase_setPhase_of_ne (hi.ne_of_reports hj').symm]
    exact h.unread j r hj'

/-- The handler of a result that does not find the entry has nothing to do. -/
theorem Taken.setPhase {r r' : SubmissionResult} (h : s.Taken r id) (hi : s.Reports i r' id)
    (hphase : p = .received ∨ p = .done ∨ ∃ pending, p = .read pending ∧ pending id = none) :
    (s.setPhase i p).Taken r id where
  absent := h.absent
  landed := h.landed.setPhase hi
  reports := h.reports
  settled j r'' hj := by
    by_cases hji : j = i
    · subst hji
      rw [phase_setPhase_self]
      exact hphase
    · rw [phase_setPhase_of_ne hji]
      exact h.settled j r'' hj
  handled := h.handled

/-- Storage reads for a handler. -/
theorem stage_read {m : SubmissionMessage} (hroster : s.Roster) (hm : s.message i = some m)
    (hphase : s.phase i = .received) (hok : s.Undisturbed (.read i)) (h : s.Stage m.submissionId) :
    (s.setPhase i (.read s.pendingSubmissions)).Stage m.submissionId := by
  cases m with
  | pending data =>
    have hi : s.Sends i data.submissionId := ⟨data, hm, rfl⟩
    refine .waiting ((h.waiting_of_sends hi (by simp [hphase])).setPhase hi (by simp) ?_)
    rintro pending ⟨⟩
  | result r =>
    have hi : s.Reports i r r.submissionId := ⟨hm, rfl⟩
    obtain ⟨hdone, hidle⟩ := hok r _ hi hphase
    cases h with
    | waiting hw =>
      obtain ⟨j, hj⟩ := hroster.sender i r _ hi
      exact absurd (hdone j hj) (hw.sender j hj).1
    | stored hs =>
      -- no other result is under way, so that this one is alone
      have hunread : ∀ j r', s.Reports j r' r.submissionId → s.phase j = .received := by
        intro j r' hj
        rcases hidle j r' hj with hphase' | hphase'
        · exact hphase'
        · rcases hs.reading j r' hj with hread | ⟨pending, hread, -⟩ <;> rw [hphase'] at hread <;>
            cases hread
      have hself : ∀ j r', s.Reports j r' r.submissionId →
          (s.setPhase i (.read s.pendingSubmissions)).phase j ≠ .received → j = i := by
        intro j r' hj hne
        by_contra hji
        rw [phase_setPhase_of_ne hji] at hne
        exact hne (hunread j r' hj)
      refine .stored ⟨hs.present, hs.unsent, hs.landed.setPhase hi, fun j r' hj => ?_,
        fun j j' r' r'' hj hj' hne hne' => (hself j r' hj hne).trans (hself j' r'' hj' hne').symm⟩
      by_cases hji : j = i
      · subst hji
        exact Or.inr ⟨_, phase_setPhase_self, hs.present⟩
      · rw [phase_setPhase_of_ne hji]
        exact hs.reading j r' hj
    | taking j r' ht =>
      obtain ⟨pending, hwriting, -⟩ := ht.writing
      rcases hidle j r' ht.reports with hphase' | hphase' <;> rw [hphase'] at hwriting <;>
        cases hwriting
    | taken r' ht => exact .taken r' (ht.setPhase hi (Or.inr (Or.inr ⟨_, rfl, ht.absent⟩)))

/-! ### The callback -/

/-- Sending a result changes nothing but what was sent. -/
theorem send_frame (pendingData : PendingSubmission) (r : SubmissionResult) :
    (s.send pendingData r).pendingSubmissions = s.pendingSubmissions ∧
      (s.send pendingData r).roundEndTime = s.roundEndTime ∧ (s.send pendingData r).now = s.now ∧
      (s.send pendingData r).message = s.message ∧ (s.send pendingData r).inTime = s.inTime ∧
      (s.send pendingData r).phase = s.phase := by
  unfold send
  split
  · split <;> exact ⟨rfl, rfl, rfl, rfl, rfl, rfl⟩
  · exact ⟨rfl, rfl, rfl, rfl, rfl, rfl⟩

/-- A result is sent when it is accepted and the round is not over. -/
theorem sent_send (pendingData : PendingSubmission) (r : SubmissionResult) (id : String) :
    (s.send pendingData r).sent id =
      if r.Accepted ∧ expired s.roundEndTime s.now = false ∧ r.submissionId = id then s.sent id + 1
      else s.sent id := by
  unfold send
  by_cases haccepted : r.Accepted
  · rw [if_pos haccepted]
    cases hexpired : expired s.roundEndTime s.now with
    | true => simp
    | false => by_cases hid : r.submissionId = id <;> simp [sent, haccepted, hid]
  · rw [if_neg haccepted, if_neg fun h => haccepted h.1]

/-- What is sent for a submission is of no concern to other ones. -/
theorem same_send (pendingData : PendingSubmission) {r : SubmissionResult}
    (hne : id ≠ r.submissionId) : Same s (s.send pendingData r) id := by
  obtain ⟨hentry, hend, hnow, hmessage, hin, hphase⟩ := send_frame (s := s) pendingData r
  refine ⟨by rw [hentry], ?_, fun j m _ => by rw [hmessage], fun j m _ _ => by rw [hin],
    fun h => by rw [hend, hnow]; exact h, fun j m _ _ => by rw [hphase]⟩
  rw [sent_send, if_neg fun h => hne h.2.2.symm]

/-- The handler finds the entry, and sends the submission if it has to be sent. -/
theorem taking_callback {r : SubmissionResult} {pending : Entries} (hi : s.Reports i r id)
    (hphase : s.phase i = .read pending) (hok : s.Undisturbed (.callback i)) (h : s.Stored id)
    (hpending : pending id ≠ none) (pendingData : PendingSubmission) :
    ((s.send pendingData r).setPhase i (.writing (Function.update pending id none))).Taking
      i r id := by
  obtain ⟨hentry, hend, hnow, hmessage, hin, hphases⟩ := send_frame (s := s) pendingData r
  have hreports : ∀ j r', (s.send pendingData r).Reports j r' id ↔ s.Reports j r' id := by
    intro j r'
    unfold Reports
    rw [hmessage]
  refine ⟨?_, ?_, (hreports i r).mpr hi, ⟨_, phase_setPhase_self, Function.update_self _ _ _⟩,
    fun j r' hj hji => ?_, ?_⟩
  · change (s.send pendingData r).pendingSubmissions id ≠ none
    rw [hentry]
    exact h.present
  · have hl : (s.send pendingData r).Landed id := by
      unfold Landed Sends
      rw [hmessage, hphases]
      exact h.landed
    exact hl.setPhase ((hreports i r).mpr hi)
  · rw [phase_setPhase_of_ne hji, hphases]
    by_contra hne
    exact hji (h.alone j i r' r ((hreports j r').mp hj) hi hne (by simp [hphase]))
  · change (s.send pendingData r).Handled r id
    unfold Handled
    rw [sent_send, hend, hnow, hin, h.unsent]
    by_cases haccepted : r.Accepted
    · cases hexpired : expired s.roundEndTime s.now with
      | false => exact Or.inl (if_pos ⟨haccepted, rfl, hi.2⟩)
      | true =>
        refine Or.inr ⟨if_neg fun hc => by simp at hc, fun _ => ⟨rfl, fun j r' hj => ?_⟩⟩
        -- the callback is late, so that no result of the submission came in time
        cases htime : s.inTime j with
        | false => rfl
        | true =>
          have hearly := hok r id pending hi hphase hpending haccepted
            ⟨j, r', (hreports j r').mp hj, htime⟩
          rw [hexpired] at hearly
          cases hearly
    · exact Or.inr ⟨if_neg fun hc => haccepted hc.1, fun hc => absurd hc haccepted⟩

/-- The callback of a handler runs. -/
theorem stage_callback {m : SubmissionMessage} {pending : Entries} (hm : s.message i = some m)
    (hphase : s.phase i = .read pending) (hok : s.Undisturbed (.callback i))
    (h : s.Stage m.submissionId) : (s.callback i).Stage m.submissionId := by
  cases m with
  | pending data =>
    have hi : s.Sends i data.submissionId := ⟨data, hm, rfl⟩
    have hstep : s.callback i =
        s.setPhase i (.writing (Function.update pending data.submissionId (some data))) := by
      simp [callback, hm, hphase]
    rw [hstep]
    -- The copy with the new entry still has to be written.
    refine .waiting ((h.waiting_of_sends hi (by simp [hphase])).setPhase hi (by simp) ?_)
    rintro pending' ⟨⟩
    simp [SubmissionMessage.submissionId]
  | result r =>
    have hi : s.Reports i r r.submissionId := ⟨hm, rfl⟩
    cases h with
    | waiting hw =>
      -- A result is not read before the submission is stored.
      have hunread := hw.unread i r hi
      rw [hphase] at hunread
      cases hunread
    | stored hs =>
      -- It was stored when it was read, and so the handler has found it.
      have hpending : pending r.submissionId ≠ none := by
        rcases hs.reading i r hi with hread | ⟨pending', hread, hfound⟩
        · rw [hphase] at hread
          cases hread
        · rw [hphase] at hread
          cases hread
          exact hfound
      obtain ⟨pendingData, hfound⟩ := Option.ne_none_iff_exists'.mp hpending
      have hstep : s.callback i = (s.send pendingData r).setPhase i
          (.writing (Function.update pending r.submissionId none)) := by
        simp [callback, hm, hphase, hfound]
      rw [hstep]
      exact .taking i r (taking_callback hi hphase hok hs hpending pendingData)
    | taking j r' ht =>
      -- While one handler removes the submission, no other one has read.
      by_cases hij : i = j
      · subst hij
        obtain ⟨pending', hwriting, -⟩ := ht.writing
        rw [hphase] at hwriting
        cases hwriting
      · have hunread := ht.unread i r hi hij
        rw [hphase] at hunread
        cases hunread
    | taken r' ht =>
      -- The submission has been removed: the handler finds nothing.
      have hmissing : pending r.submissionId = none := by
        rcases ht.settled i r hi with hread | hread | ⟨pending', hread, hnone⟩
        · rw [hphase] at hread
          cases hread
        · rw [hphase] at hread
          cases hread
        · rw [hphase] at hread
          cases hread
          exact hnone
      have hstep : s.callback i = s.setPhase i .done := by simp [callback, hm, hphase, hmissing]
      rw [hstep]
      exact .taken r' (ht.setPhase hi (Or.inr (Or.inl rfl)))

/-! ### The write -/

/-- Storage writes for a handler. -/
theorem stage_write {m : SubmissionMessage} {pending : Entries} (hroster : s.Roster)
    (hm : s.message i = some m) (hphase : s.phase i = .writing pending)
    (h : s.Stage m.submissionId) : (s.write i).Stage m.submissionId := by
  have hstep : s.write i = { s.setPhase i .done with pendingSubmissions := pending } := by
    simp [write, hm, hphase]
  have hself : (s.write i).phase i = .done := by
    rw [hstep]
    exact Function.update_self _ _ _
  have hother : ∀ j, j ≠ i → (s.write i).phase j = s.phase j := by
    intro j hji
    rw [hstep]
    exact Function.update_of_ne hji _ _
  have hentry : (s.write i).pendingSubmissions = pending := by rw [hstep]
  have hmessage : (s.write i).message = s.message := by rw [hstep]; rfl
  have hsends : ∀ j, (s.write i).Sends j m.submissionId ↔ s.Sends j m.submissionId := by
    intro j
    rw [Sends, Sends, hmessage]
  have hreports : ∀ j r, (s.write i).Reports j r m.submissionId ↔ s.Reports j r m.submissionId := by
    intro j r
    rw [Reports, Reports, hmessage]
  cases m with
  | pending data =>
    have hi : s.Sends i data.submissionId := ⟨data, hm, rfl⟩
    have hw := h.waiting_of_sends hi (by simp [hphase])
    -- what was received of results is unread, and stays so
    have hunread : ∀ j r, (s.write i).Reports j r data.submissionId →
        (s.write i).phase j = .received := by
      intro j r hj
      have hj' := (hreports j r).mp hj
      rw [hother j (hi.ne_of_reports hj').symm]
      exact hw.unread j r hj'
    refine .stored ⟨?_, ?_, ⟨⟨i, (hsends i).mpr hi⟩, fun j hj => ?_⟩,
      fun j r hj => Or.inl (hunread j r hj),
      fun j j' r r' hj _ hne _ => absurd (hunread j r hj) hne⟩
    · change (s.write i).pendingSubmissions data.submissionId ≠ none
      rw [hentry]
      exact (hw.sender i hi).2 pending hphase
    · rw [hstep]
      exact hw.unsent
    · rw [hroster.one_sender j i _ ((hsends j).mp hj) hi]
      exact hself
  | result r =>
    have hi : s.Reports i r r.submissionId := ⟨hm, rfl⟩
    cases h with
    | waiting hw =>
      have hunread := hw.unread i r hi
      rw [hphase] at hunread
      cases hunread
    | stored hs =>
      rcases hs.reading i r hi with hread | ⟨pending', hread, -⟩ <;> rw [hphase] at hread <;>
        cases hread
    | taking j r' ht =>
      have hij : i = j := by
        by_contra hij
        have hunread := ht.unread i r hi hij
        rw [hphase] at hunread
        cases hunread
      subst hij
      obtain ⟨pending', hwriting, hnone⟩ := ht.writing
      rw [hphase] at hwriting
      cases hwriting
      refine .taken r' ⟨?_, ?_, ⟨i, (hreports i r').mpr ht.reports⟩, fun j r'' hj => ?_, ?_⟩
      · rw [hentry]
        exact hnone
      · rw [hstep]
        exact ht.landed.setPhase hi
      · by_cases hji : j = i
        · subst hji
          exact Or.inr (Or.inl hself)
        · rw [hother j hji]
          exact Or.inl (ht.unread j r'' ((hreports j r'').mp hj) hji)
      · rw [hstep]
        exact ht.handled
    | taken r' ht =>
      rcases ht.settled i r hi with hread | hread | ⟨pending', hread, -⟩ <;> rw [hphase] at hread <;>
        cases hread

/-- What a handler writes agrees with what is stored of other submissions. -/
theorem same_write {m : SubmissionMessage} {pending : Entries} (hm : s.message i = some m)
    (hphase : s.phase i = .writing pending) (hok : s.Undisturbed (.write i))
    (hne : id ≠ m.submissionId) : Same s (s.write i) id := by
  have hstep : s.write i = { s.setPhase i .done with pendingSubmissions := pending } := by
    simp [write, hm, hphase]
  have h := same_setPhase hm hne .done
  rw [hstep]
  exact ⟨hok m pending hm hphase id hne, h.sent, h.message, h.inTime, h.expired, h.phase⟩

end Handle

/-! ## Runs -/

/-- Whether the messages are in order depends only on them. -/
theorem Roster.of_message_eq {s s' : Background} (h : s'.message = s.message) (hroster : s.Roster) :
    s'.Roster := by
  obtain ⟨hsender, hreports, hstatus⟩ := hroster
  refine ⟨?_, ?_, ?_⟩ <;> unfold Sends Reports at * <;> rwa [h]

/-- Every submission is in a stage. -/
def Staged (s : Background) : Prop := s.Roster ∧ ∀ id, s.Stage id

/-- A message that comes in takes its submission to its next stage. -/
theorem staged_receive {s : Background} {i : ℕ} {m : SubmissionMessage} (h : s.Staged)
    (hfree : s.message i = none) (horder : s.InOrder (.receive i m))
    (hok : s.Undisturbed (.receive i m)) : (s.receive i m).Staged := by
  obtain ⟨hroster, hstage⟩ := h
  refine ⟨roster_receive hroster hfree horder hok, fun id => ?_⟩
  by_cases hid : id = m.submissionId
  · subst hid
    cases m with
    | pending data => exact stage_receive_pending hroster hfree horder hok (hstage _)
    | result r => exact stage_receive_result hfree hok (hstage _)
  · exact (same_receive hfree hok hid).stage (hstage id)

/-- So does reading the storage. -/
theorem staged_read {s : Background} {i : ℕ} (h : s.Staged) (hok : s.Undisturbed (.read i)) :
    (s.read i).Staged := by
  unfold read
  split
  · rename_i m hm hphase
    refine ⟨Roster.of_message_eq (s := s) rfl h.1, fun id => ?_⟩
    by_cases hid : id = m.submissionId
    · subst hid
      exact stage_read h.1 hm hphase hok (h.2 _)
    · exact (same_setPhase hm hid _).stage (h.2 id)
  · exact h

/-- So does what is computed from what was read. -/
theorem staged_callback {s : Background} {i : ℕ} (h : s.Staged)
    (hok : s.Undisturbed (.callback i)) : (s.callback i).Staged := by
  obtain ⟨hroster, hstage⟩ := h
  cases hphase : s.phase i with
  | read pending =>
    cases hm : s.message i with
    | none => simpa [callback, hm] using ⟨hroster, hstage⟩
    | some m =>
      -- The submission of the message moves on, and the others are left alone.
      have hown := stage_callback hm hphase hok (hstage m.submissionId)
      cases m with
      | pending data =>
        have hstep : s.callback i =
            s.setPhase i (.writing (Function.update pending data.submissionId (some data))) := by
          simp [callback, hm, hphase]
        refine ⟨hroster.of_message_eq (by rw [hstep]; rfl), fun id => ?_⟩
        by_cases hid : id = data.submissionId
        · subst hid
          exact hown
        · rw [hstep]
          exact (same_setPhase hm hid _).stage (hstage id)
      | result r =>
        cases hfound : pending r.submissionId with
        | none =>
          have hstep : s.callback i = s.setPhase i .done := by simp [callback, hm, hphase, hfound]
          refine ⟨hroster.of_message_eq (by rw [hstep]; rfl), fun id => ?_⟩
          by_cases hid : id = r.submissionId
          · subst hid
            exact hown
          · rw [hstep]
            exact (same_setPhase hm hid _).stage (hstage id)
        | some pendingData =>
          have hstep : s.callback i = (s.send pendingData r).setPhase i
              (.writing (Function.update pending r.submissionId none)) := by
            simp [callback, hm, hphase, hfound]
          have hmessage := (send_frame (s := s) pendingData r).2.2.2.1
          refine ⟨hroster.of_message_eq (by rw [hstep]; exact hmessage), fun id => ?_⟩
          by_cases hid : id = r.submissionId
          · subst hid
            exact hown
          · rw [hstep]
            have hm' : (s.send pendingData r).message i = some (.result r) := by rw [hmessage, hm]
            exact ((same_send pendingData hid).trans (same_setPhase hm' hid _)).stage (hstage id)
  | received => simpa [callback, hphase] using ⟨hroster, hstage⟩
  | writing pending => simpa [callback, hphase] using ⟨hroster, hstage⟩
  | done => simpa [callback, hphase] using ⟨hroster, hstage⟩

/-- So does writing the storage. -/
theorem staged_write {s : Background} {i : ℕ} (h : s.Staged) (hok : s.Undisturbed (.write i)) :
    (s.write i).Staged := by
  obtain ⟨hroster, hstage⟩ := h
  cases hm : s.message i with
  | none => simpa [write, hm] using ⟨hroster, hstage⟩
  | some m =>
    cases hphase : s.phase i with
    | writing pending =>
      refine ⟨hroster.of_message_eq (by simp [write, hm, hphase, setPhase]), fun id => ?_⟩
      by_cases hid : id = m.submissionId
      · subst hid
        exact stage_write hroster hm hphase (hstage _)
      · exact (same_write hm hphase hok hid).stage (hstage id)
    | received => simpa [write, hm, hphase] using ⟨hroster, hstage⟩
    | read pending => simpa [write, hm, hphase] using ⟨hroster, hstage⟩
    | done => simpa [write, hm, hphase] using ⟨hroster, hstage⟩

/-- A step that nothing disturbs keeps every submission in a stage. -/
theorem Staged.step {s : Background} (h : s.Staged) {e : BackgroundEvent} (horder : s.InOrder e)
    (hok : s.Undisturbed e) : (s.step e).Staged := by
  cases e with
  | tick d =>
    refine ⟨Roster.of_message_eq (s := s) rfl h.1, fun id => Same.stage (s := s) ?_ (h.2 id)⟩
    exact ⟨rfl, rfl, fun _ _ _ => Iff.rfl, fun _ _ _ _ => rfl,
      expired_mono (by change s.now ≤ s.now + d; omega), fun _ _ _ _ => rfl⟩
  | receive i m =>
    change Staged (if s.message i = none then s.receive i m else s)
    split
    · exact staged_receive h ‹_› horder hok
    · exact h
  | read i => exact staged_read h hok
  | callback i => exact staged_callback h hok
  | write i => exact staged_write h hok

/-- Before any message every submission waits. -/
theorem staged_start (roundEndTime : Option ℤ) (now : ℤ) : (start roundEndTime now).Staged := by
  have hsends : ∀ i id, ¬ (start roundEndTime now).Sends i id := by
    rintro i id ⟨data, hdata, -⟩
    cases hdata
  have hreports : ∀ i r id, ¬ (start roundEndTime now).Reports i r id := by
    rintro i r id ⟨hr, -⟩
    cases hr
  exact ⟨⟨fun i _ id hi _ => absurd hi (hsends i id), fun i r id hi => absurd hi (hreports i r id),
      fun i _ r _ id hi _ => absurd hi (hreports i r id)⟩,
    fun id => .waiting ⟨rfl, rfl, fun i hi => absurd hi (hsends i id),
      fun i r hi => absurd hi (hreports i r id)⟩⟩

/-- A write that nothing disturbs removes no other entry; the other steps write nothing. -/
theorem keepsOthers_of_undisturbed {s : Background} {e : BackgroundEvent} (hok : s.Undisturbed e) :
    s.KeepsOthers e := by
  intro id hid hother
  cases e with
  | tick d => exact hid
  | receive i m =>
    change (if s.message i = none then s.receive i m else s).pendingSubmissions id ≠ none
    split
    · rwa [receive_eq hok]
    · exact hid
  | read i =>
    change (s.read i).pendingSubmissions id ≠ none
    unfold read
    split <;> exact hid
  | callback i =>
    change (s.callback i).pendingSubmissions id ≠ none
    unfold callback
    split
    · exact hid
    · split
      · change (s.send _ _).pendingSubmissions id ≠ none
        rwa [(send_frame _ _).1]
      · exact hid
    · exact hid
  | write i =>
    -- Only a write changes what is stored, and its copy agrees on every other submission.
    change (s.write i).pendingSubmissions id ≠ none
    unfold write
    split
    · rename_i m pending hm hphase
      change pending id ≠ none
      rwa [hok m pending hm hphase id (hother i m rfl hm).symm]
    · exact hid

/-- As long as no handler gets in the way of another, every accepted submission is sent exactly once
and no submission removes the entry of another one, in every interleaving. -/
theorem postedOnce_of_undisturbed (roundEndTime : Option ℤ) (now : ℤ) (es : List BackgroundEvent)
    (horder : Along step InOrder (start roundEndTime now) es)
    (hok : Along step Undisturbed (start roundEndTime now) es) :
    Throughout step PostedOnce (start roundEndTime now) es ∧
      Along step KeepsOthers (start roundEndTime now) es := by
  refine ⟨?_, hok.mono fun s e => keepsOthers_of_undisturbed⟩
  have hstaged : Throughout step Staged (start roundEndTime now) es :=
    invariant_along (fun s e h hboth => h.step hboth.1 hboth.2) (staged_start roundEndTime now)
      (horder.and hok)
  exact hstaged.mono fun s h => Stage.postedOnce h.1 h.2

/-! ## One message after the other -/

/-- The handler of a message runs without a break. -/
def handledAtOnce (i : ℕ) (m : SubmissionMessage) : List BackgroundEvent :=
  [.receive i m, .read i, .callback i, .write i]

/-- Every message that was received is handled, and no round is about to end. -/
structure Idle (s : Background) : Prop where
  unlimited : s.roundEndTime = none
  handled : ∀ i m, s.message i = some m → s.phase i = .done

/-- The other messages are handled while one is under way. -/
structure Alone (s : Background) (i : ℕ) (m : SubmissionMessage) : Prop where
  unlimited : s.roundEndTime = none
  message : s.message i = some m
  others : ∀ j m', s.message j = some m' → j ≠ i → s.phase j = .done

section Idle

variable {s : Background} {i : ℕ} {m : SubmissionMessage}

/-- A message that is alone stays so in its next phase. -/
theorem Alone.setPhase (h : s.Alone i m) (p : Phase) : (s.setPhase i p).Alone i m :=
  ⟨h.unlimited, h.message, fun j m' hm' hne =>
    (phase_setPhase_of_ne hne).trans (h.others j m' hm' hne)⟩

/-- A message that comes in to an idle background is alone there. -/
theorem Idle.receive (h : s.Idle) (hfree : s.message i = none)
    (hok : s.Undisturbed (.receive i m)) : (s.receive i m).Alone i m := by
  refine ⟨?_, (message_receive_iff hfree hok).mpr (Or.inr ⟨rfl, rfl⟩), fun j m' hm' hne => ?_⟩
  · rw [receive_eq hok]
    exact h.unlimited
  · have hold := ((message_receive_iff hfree hok).mp hm').resolve_right fun hi => hne hi.1
    rw [phase_receive hfree hok hold]
    exact h.handled j m' hold

/-- Storage is read while nobody else is under way. -/
theorem Alone.undisturbed_read (h : s.Alone i m) : s.Undisturbed (.read i) := by
  intro r id hi hphase
  refine ⟨fun j hj => ?_, fun j r' hj => ?_⟩
  · have hne : j ≠ i := hj.ne_of_reports hi
    obtain ⟨data, hdata, -⟩ := hj
    exact h.others j _ hdata hne
  · by_cases hji : j = i
    · rw [hji]
      exact Or.inl hphase
    · exact Or.inr (h.others j _ hj.1 hji)

/-- The callback changes the entry of its own submission in the copy, or has nothing to do. -/
theorem Alone.callback (h : s.Alone i m) (hphase : s.phase i = .read s.pendingSubmissions) :
    (s.callback i).Alone i m ∧ ((s.callback i).phase i = .done ∨ ∃ entry, (s.callback i).phase i =
      .writing (Function.update (s.callback i).pendingSubmissions m.submissionId entry)) := by
  have hm := h.message
  cases m with
  | pending data =>
    have heq : s.callback i = s.setPhase i
        (.writing (Function.update s.pendingSubmissions data.submissionId (some data))) := by
      unfold callback
      rw [hm, hphase]
    rw [heq]
    exact ⟨h.setPhase _, Or.inr ⟨_, phase_setPhase_self⟩⟩
  | result r =>
    cases hentry : s.pendingSubmissions r.submissionId with
    | none =>
      have heq : s.callback i = s.setPhase i .done := by
        unfold callback
        rw [hm, hphase]
        dsimp only
        rw [hentry]
      rw [heq]
      exact ⟨h.setPhase _, Or.inl phase_setPhase_self⟩
    -- The entry is there: the result is sent with its data, and the entry will be removed.
    | some pendingData =>
      have heq : s.callback i = (s.send pendingData r).setPhase i
          (.writing (Function.update s.pendingSubmissions r.submissionId none)) := by
        unfold callback
        rw [hm, hphase]
        dsimp only
        rw [hentry]
      obtain ⟨hpending, hend, -, hmessage, -, hphases⟩ := send_frame (s := s) pendingData r
      have hsent : (s.send pendingData r).Alone i (.result r) :=
        ⟨hend.trans h.unlimited, by rw [hmessage]; exact hm, fun j m' hm' hne => by
          rw [hphases]
          exact h.others j m' (hmessage ▸ hm') hne⟩
      rw [heq]
      refine ⟨hsent.setPhase _, Or.inr ⟨none, ?_⟩⟩
      rw [phase_setPhase_self, ← hpending]
      rfl

/-- What is written differs from what is stored in the entry of its own submission only. -/
theorem Alone.write (h : s.Alone i m) (hphase : s.phase i = .done ∨ ∃ entry, s.phase i =
    .writing (Function.update s.pendingSubmissions m.submissionId entry)) :
    s.Undisturbed (.write i) ∧ (s.write i).Idle := by
  have hm := h.message
  rcases hphase with hphase | ⟨entry, hphase⟩
  · have heq : s.write i = s := by
      unfold Background.write
      rw [hm, hphase]
    refine ⟨fun m' pending _ hwriting => ?_, ?_⟩
    · rw [hphase] at hwriting
      cases hwriting
    · rw [heq]
      refine ⟨h.unlimited, fun j m' hm' => ?_⟩
      by_cases hji : j = i
      · rw [hji]
        exact hphase
      · exact h.others j m' hm' hji
  · -- What was read is still what is stored, so the write changes this one entry.
    have heq : s.write i = { s.setPhase i .done with
        pendingSubmissions := Function.update s.pendingSubmissions m.submissionId entry } := by
      unfold Background.write
      rw [hm, hphase]
    refine ⟨fun m' pending hm' hwriting id hid => ?_, ?_⟩
    · rw [hm] at hm'
      rw [hphase] at hwriting
      cases hm'
      cases hwriting
      exact Function.update_of_ne hid _ _
    · rw [heq]
      refine ⟨h.unlimited, fun j m' hm' => ?_⟩
      by_cases hji : j = i
      · rw [hji]
        exact phase_setPhase_self
      · exact (phase_setPhase_of_ne hji).trans (h.others j m' hm' hji)

/-- A message whose handler runs without a break disturbs nothing, and is handled then. -/
theorem Idle.handled_append (h : s.Idle) (hfree : s.message i = none)
    (hok : s.Undisturbed (.receive i m)) {es : List BackgroundEvent}
    (hrest : (run step s (handledAtOnce i m)).Idle →
      Along step Undisturbed (run step s (handledAtOnce i m)) es) :
    Along step Undisturbed s (handledAtOnce i m ++ es) := by
  have hreceive : s.step (.receive i m) = s.receive i m := if_pos hfree
  have hreceived := h.receive hfree hok
  have hread : (s.receive i m).step (.read i) =
      (s.receive i m).setPhase i (.read (s.receive i m).pendingSubmissions) := by
    show (s.receive i m).read i = _
    unfold read
    rw [hreceived.message, phase_receive_self hok]
  obtain ⟨hcalled, hphase⟩ :=
    (hreceived.setPhase (.read (s.receive i m).pendingSubmissions)).callback phase_setPhase_self
  obtain ⟨hwrite, hidle⟩ := hcalled.write hphase
  have hrun : run step s (handledAtOnce i m) = (((s.receive i m).setPhase i
      (.read (s.receive i m).pendingSubmissions)).callback i).write i := by
    show (((s.step (.receive i m)).step (.read i)).step (.callback i)).step (.write i) = _
    rw [hreceive, hread]
    rfl
  rw [hrun] at hrest
  show Along step Undisturbed s (_ :: _ :: _ :: _ :: es)
  rw [along_cons, along_cons, along_cons, along_cons, hreceive, hread]
  refine ⟨hok, hreceived.undisturbed_read, fun _ _ _ _ _ _ _ _ => ?_, hwrite, hrest hidle⟩
  -- No round is about to end.
  rw [expired, (hreceived.setPhase _).unlimited]
  rfl

end Idle

/-! ## Runs -/

/-- A submission to a problem, with its number as id. -/
def submitted (id slug : String) : SubmissionMessage :=
  .pending ⟨id, slug, "class Solution", "java"⟩

/-- It is accepted. -/
def accepted (id : String) : SubmissionMessage := .result ⟨id, "Accepted", "41", "87.5"⟩

/-- Two submissions, one after the other, and then their results. -/
def twoInTurn : List BackgroundEvent :=
  handledAtOnce 0 (submitted "1" "two-sum") ++ (handledAtOnce 1 (submitted "2" "3sum") ++
    (handledAtOnce 2 (accepted "1") ++ (handledAtOnce 3 (accepted "2") ++ [])))

/-- Two submissions at the same time. The write for the second one loses the first, whose result
then finds nothing. -/
def lostUpdate : List BackgroundEvent :=
  [.receive 0 (submitted "1" "two-sum"), .receive 1 (submitted "2" "two-sum"),
    .read 0, .read 1, .callback 0, .callback 1, .write 0, .write 1,
    .receive 2 (accepted "1"), .read 2, .callback 2]

/-- A result that is reported twice, the second time before the removal of the entry is stored. -/
def sentTwice : List BackgroundEvent :=
  [.receive 0 (submitted "1" "two-sum"), .read 0, .callback 0, .write 0,
    .receive 1 (accepted "1"), .receive 2 (accepted "1"), .read 1, .read 2, .callback 1,
    .callback 2]

/-- Each of the two is sent once, and keeps the entry of the other one. -/
theorem postedOnce_twoInTurn : Along step InOrder (start none 0) twoInTurn ∧
    Throughout step PostedOnce (start none 0) twoInTurn ∧
      Along step KeepsOthers (start none 0) twoInTurn := by
  have horder : Along step InOrder (start none 0) twoInTurn := by
    refine ⟨?_, trivial, trivial, trivial, ?_, trivial, trivial, trivial, ⟨0, _, rfl, rfl⟩, trivial,
      trivial, trivial, ⟨1, _, rfl, rfl⟩, trivial, trivial, trivial, trivial⟩
    · rintro j ⟨data, hdata, -⟩
      cases hdata
    · rintro (_ | j) ⟨data, hdata, hid⟩
      · cases hdata
        revert hid
        decide
      · cases hdata
  have hidle : (start none 0).Idle := ⟨rfl, fun i m hm => by cases hm⟩
  have hok : Along step Undisturbed (start none 0) twoInTurn := by
    refine hidle.handled_append rfl ?_ fun hidle => ?_
    · exact ⟨by decide, by decide⟩
    refine hidle.handled_append rfl ?_ fun hidle => ?_
    · exact ⟨by decide, by decide⟩
    refine hidle.handled_append rfl ?_ fun hidle => ?_
    · rintro (_ | _ | j) r' ⟨hr, -⟩ <;> cases hr
    refine hidle.handled_append rfl ?_ fun _ => trivial
    rintro (_ | _ | _ | j) r' ⟨hr, hid⟩ <;> cases hr
    rfl
  exact ⟨horder, postedOnce_of_undisturbed none 0 _ horder hok⟩

/-- An entry is lost with a write, and a submission is sent twice. -/
theorem not_postedOnce :
    (Along step InOrder (start none 0) lostUpdate ∧
      ¬ Along step KeepsOthers (start none 0) lostUpdate ∧
      ¬ Throughout step PostedOnce (start none 0) lostUpdate) ∧
    Along step InOrder (start none 0) sentTwice ∧
      ¬ Throughout step PostedOnce (start none 0) sentTwice := by
  refine ⟨⟨⟨?_, ?_, trivial, trivial, trivial, trivial, trivial, trivial, ⟨0, _, rfl, rfl⟩, trivial,
    trivial, trivial⟩, fun h => ?_, fun h => ?_⟩, ⟨?_, trivial, trivial, trivial, ⟨0, _, rfl, rfl⟩,
    ⟨0, _, rfl, rfl⟩, trivial, trivial, trivial, trivial, trivial⟩, fun h => ?_⟩
  · rintro j ⟨data, hdata, -⟩
    cases hdata
  · rintro (_ | j) ⟨data, hdata, hid⟩
    · cases hdata
      revert hid
      decide
    · cases hdata
  · -- The second write removes the entry of the first submission.
    obtain ⟨-, -, -, -, -, -, -, h, -⟩ := h
    refine h "1" (by decide) ?_ (by decide)
    rintro i m ⟨⟩ hm
    cases hm
    decide
  · -- The accepted result of the first submission is never sent.
    have hlast := (h.last "1").2 2 ⟨"1", "Accepted", "41", "87.5"⟩ ⟨by decide, rfl⟩ rfl (by decide)
      trivial
    revert hlast
    decide
  · rintro j ⟨data, hdata, -⟩
    cases hdata
  · -- Both handlers have read the entry, and both send.
    have hlast := (h.last "1").1
    revert hlast
    decide

end Bsg.Extension.Background
