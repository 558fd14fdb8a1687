import Bsg.Central.RtcClient

/-!
# Messages that nobody takes

`IngressHandler` stops reading when the channel is full, and only a call of `SendMessage` takes
messages off it, up to the first one that it expects. Between calls the handler is free exactly
while at most ten of the messages that rtc-service sent are left (`never_wedged_iff`). A room that
is joined may send a hundred messages again, and the call leaves what comes after the first join
(`wedged`).
-/

namespace Bsg.Central

open Bsg.Foundations Bsg.Rtc

/-- How many messages rtc-service sends to central-service at an event. -/
def sentAt (l : Link) (e : LinkEvent) : ℕ := (l.arrivals e).length

/-- How many messages a call takes at an event. -/
def takenAt (l : Link) : LinkEvent → ℕ
  | .take => if l.call.isSome ∧ l.ingress ≠ [] then 1 else 0
  | _ => 0

/-- No call waits, and `IngressHandler` does not get on. -/
def Link.Wedged (l : Link) : Prop := l.call = none ∧ l.Blocked

instance (l : Link) : Decidable l.Wedged := inferInstanceAs (Decidable (_ ∧ _))

/-- What `IngressHandler` does. -/
def LinkEvent.Reading : LinkEvent → Prop
  | .read | .pass => True
  | _ => False

/-! ## Counting -/

/-- What is unread is what was sent and not taken. -/
theorem length_unread_step (l : Link) (e : LinkEvent) :
    (l.step e).unread.length + takenAt l e = l.unread.length + sentAt l e := by
  by_cases htake : e = .take
  · subst htake
    have hsent : sentAt l .take = 0 := rfl
    rcases l.take_cases with hsame | ⟨c, x, rest, hcall, hingress, hunread, -⟩
    · have htaken : takenAt l .take = 0 := by
        refine if_neg fun ⟨hcall, hne⟩ => ?_
        obtain ⟨c, hc⟩ := Option.isSome_iff_exists.mp hcall
        obtain ⟨x, rest, hx⟩ := List.exists_cons_of_ne_nil hne
        have hlength := congrArg (fun l => l.ingress.length) hsame
        by_cases htakes : c.takes x = true <;>
          simp [Link.step, hc, hx, htakes] at hlength
      rw [hsame, htaken, hsent]
    · have htaken : takenAt l .take = 1 := if_pos ⟨by simp [hcall], by simp [hingress]⟩
      rw [htaken, hsent, hunread, List.length_cons]
  · have htaken : takenAt l e = 0 := by
      cases e <;> first | rfl | exact absurd rfl htake
    rw [htaken, l.unread_step e htake, List.length_append]
    rfl

/-- The messages that were sent were taken or are unread. -/
theorem length_unread_run (l : Link) (es : List LinkEvent) :
    (run Link.step l es).unread.length + total Link.step takenAt l es =
      l.unread.length + total Link.step sentAt l es := by
  induction es generalizing l with
  | nil => rfl
  | cons e es ih =>
    have hstep := length_unread_step l e
    have hrest := ih (l.step e)
    rw [run_cons, total_cons, total_cons]
    omega

/-! ## The channel -/

/-- The channel holds no more than its capacity. -/
theorem length_ingress_step {l : Link} (h : l.ingress.length ≤ ingressCapacity) (e : LinkEvent) :
    (l.step e).ingress.length ≤ ingressCapacity := by
  cases e with
  | send r => cases hcall : l.call <;> simpa [Link.step, hcall] using h
  | read =>
    cases hhand : l.hand <;> cases hsocket : l.socket <;> simpa [Link.step, hhand, hsocket] using h
  | pass =>
    cases hhand : l.hand with
    | none => simpa [Link.step, hhand] using h
    | some x =>
      by_cases hroom : l.ingress.length < ingressCapacity
      · rw [Link.step, hhand]
        simp only [if_pos hroom, List.length_append, List.length_singleton]
        exact hroom
      · simpa [Link.step, hhand, hroom] using h
  | take =>
    rcases l.take_cases with hsame | ⟨c, x, rest, -, hingress, -, hstep⟩
    · rwa [hsame]
    · rw [hingress, List.length_cons] at h
      rw [hstep]
      split <;> exact Nat.le_of_succ_le h
  | _ => exact h

/-- The channel does not exceed its capacity. -/
theorem length_ingress_run (server : Server) (es : List LinkEvent) :
    (run Link.step (.start server) es).ingress.length ≤ ingressCapacity :=
  (invariant_along (I := fun l : Link => l.ingress.length ≤ ingressCapacity)
    (fun _ e h _ => length_ingress_step h e) (Nat.zero_le _)
    (Along.of_forall fun _ _ => trivial : Along Link.step (fun _ _ => True) _ _)).last

/-- `IngressHandler` keeps what is unread, and the call. -/
theorem reading_run {l : Link} {es : List LinkEvent} (h : ∀ e ∈ es, e.Reading) :
    (run Link.step l es).unread = l.unread ∧ (run Link.step l es).call = l.call := by
  induction es generalizing l with
  | nil => exact ⟨rfl, rfl⟩
  | cons e es ih =>
    obtain ⟨he, hes⟩ := List.forall_mem_cons.mp h
    obtain ⟨hunread, hcall⟩ := ih hes (l := l.step e)
    rw [run_cons, hunread, hcall]
    cases e with
    | read => exact ⟨l.unread_read, (l.reading_frame (Or.inl rfl)).2.2.1⟩
    | pass => exact ⟨l.unread_pass, (l.reading_frame (Or.inr rfl)).2.2.1⟩
    | _ => exact he.elim

/-- With more than ten messages unread, `IngressHandler` comes to a stop. -/
theorem exists_blocked {l : Link} (hchannel : l.ingress.length ≤ ingressCapacity)
    (h : ingressCapacity < l.unread.length) :
    ∃ es, (∀ e ∈ es, e.Reading) ∧ (run Link.step l es).Blocked := by
  induction hn : 2 * l.socket.length + l.hand.toList.length using Nat.strong_induction_on
    generalizing l with
  | _ n ih =>
    -- A step on the way leaves less to do.
    have onward : ∀ e : LinkEvent, e.Reading → (l.step e).unread = l.unread →
        2 * (l.step e).socket.length + (l.step e).hand.toList.length < n →
        ∃ es, (∀ e ∈ es, e.Reading) ∧ (run Link.step l es).Blocked := by
      intro e he hunread hless
      obtain ⟨es, hes, hblocked⟩ := ih _ hless (length_ingress_step hchannel e)
        (hunread ▸ h) rfl
      exact ⟨e :: es, List.forall_mem_cons.mpr ⟨he, hes⟩, hblocked⟩
    -- What is in hand is passed on while there is room; else the next one is read.
    cases hhand : l.hand with
    | some x =>
      by_cases hroom : l.ingress.length < ingressCapacity
      · refine onward .pass trivial l.unread_pass ?_
        simp only [Link.step, hhand, if_pos hroom, ← hn]
        simp
      · exact ⟨[], by simp, by simp [hhand], Nat.le_antisymm hchannel (Nat.le_of_not_lt hroom)⟩
    | none =>
      cases hsocket : l.socket with
      | nil =>
        simp only [Link.unread, hhand, hsocket, List.append_nil, Option.toList_none] at h
        omega
      | cons x socket =>
        refine onward .read trivial l.unread_read ?_
        simp only [Link.step, hhand, hsocket, ← hn]
        simp
        omega

/-- In a run, however far `IngressHandler` gets, it is never stuck between calls, exactly when
between calls at most ten of the messages that rtc-service sent have not been taken. -/
theorem never_wedged_iff (server : Server) (es : List LinkEvent) :
    (∀ es' onward, es' <+: es → (∀ e ∈ onward, e.Reading) →
      ¬ (run Link.step (.start server) (es' ++ onward)).Wedged) ↔
      ∀ es', es' <+: es → (run Link.step (.start server) es').call = none →
        total Link.step sentAt (.start server) es' ≤
          total Link.step takenAt (.start server) es' + ingressCapacity := by
  -- What is not taken yet is unread.
  have hcount : ∀ es', (run Link.step (.start server) es').unread.length +
      total Link.step takenAt (.start server) es' =
        total Link.step sentAt (.start server) es' := by
    intro es'
    rw [length_unread_run]
    exact Nat.zero_add _
  refine forall_congr' fun es' => ?_
  constructor
  · intro hall hprefix hidle
    by_contra hmany
    have hunread : ingressCapacity < (run Link.step (.start server) es').unread.length := by
      have := hcount es'
      omega
    obtain ⟨onward, honward, hblocked⟩ := exists_blocked (length_ingress_run server es') hunread
    refine hall onward hprefix honward ?_
    rw [run_append]
    exact ⟨(reading_run honward).2.trans hidle, hblocked⟩
  · intro hfew onward hprefix honward hwedged
    rw [run_append] at hwedged
    obtain ⟨hunread, hcall⟩ := reading_run (l := run Link.step (.start server) es') honward
    obtain ⟨hidle, hhand, hfull⟩ := hwedged
    have hbound := hfew hprefix (hcall ▸ hidle)
    have hlength := congrArg List.length hunread
    obtain ⟨x, hx⟩ := Option.isSome_iff_exists.mp hhand
    simp only [Link.unread, List.length_append, hx, Option.toList_some, List.length_singleton,
      hfull] at hlength
    have := hcount es'
    simp only [Link.unread, List.length_append] at this
    omega

/-! ## A room with a history -/

/-- What the first user of a room does: she joins it, and sends eleven chat messages. -/
def firstUser : List LinkEvent :=
  .connect 1 (utf8 "alice") ::
  .other (Moment.plain 0) 1
    (.request (utf8 "alice") (.of (.joinRoom (utf8 "alice") "room" [] false none))) ::
  List.replicate 11 (.other (Moment.plain 0) 1
    (.request (utf8 "alice") (.chatMessage (utf8 "alice") [] [] "room" (utf8 "hello"))))

/-- A second user joins, through central-service; the call returns, and then the connection is read
further. -/
def secondUser : List LinkEvent :=
  [.send (.joinRoom (utf8 "bob") "room" [] false none), .handle (Moment.plain 0),
    .read, .pass, .take] ++ (List.replicate 11 [.read, .pass]).flatten

/-- The call takes the first of thirteen messages, and `IngressHandler` does not get past the
eleventh of the others. -/
theorem wedged :
    (run Link.step (.start ⟨fun _ => none, [(centralConn, [])]⟩) (firstUser ++ secondUser)).Wedged := by
  decide +kernel

end Bsg.Central
