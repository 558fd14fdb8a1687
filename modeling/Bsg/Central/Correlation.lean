import Bsg.Central.RtcClient

/-!
# Responses and the requests that they answer

A response names no request, and `SendMessage` takes the first message of the type that it expects.
It is the answer to the request as long as nothing of that type comes before it: neither a message
that earlier calls left behind, nor one that rtc-service sends meanwhile, such as the history of a
room that is joined (`Unmistaken`, `correlated_iff`). An announced join stays in the history of its
room, so the call for the second user of a room already gets a replayed message (`not_correlated`).
-/

namespace Bsg.Central

open Bsg.Foundations Bsg.Rtc

/-- Every call returned the answer to its own request. -/
def Link.Correlated (l : Link) : Prop := ∀ x ∈ l.returned, x.message.answers = some x.number

instance (l : Link) : Decidable l.Correlated := inferInstanceAs (Decidable (∀ x ∈ _, _))

/-- The call that waits will take the answer to its own request, if the messages so far have one of
its type. -/
def Link.Due (l : Link) : Prop :=
  ∀ c, l.call = some c → ∀ x, l.unread.find? c.takes = some x → x.answers = some c.number

/-- While a call waits for its answer, nothing that it would take arrives before the answer. -/
def Link.Undisturbed (l : Link) (batch : List Sent) : Prop :=
  ∀ c, l.call = some c → (∃ x ∈ l.unread, x.answers = some c.number) ∨
    ∀ x ∈ batch.takeWhile fun x => x.answers ≠ some c.number, c.takes x = false

/-- A call finds nothing that it would take when it begins, and nothing of the kind arrives before
its answer. -/
def Unmistaken (l : Link) : LinkEvent → Prop
  | .send r => l.call = none → ∀ x ∈ l.unread, (WaitingCall.mk l.calls (expectedFor r)).takes x = false
  | e => l.Undisturbed (l.arrivals e)

/-- What happens in central-service while a call waits. -/
def LinkEvent.Local : LinkEvent → Prop
  | .read | .pass | .take => True
  | _ => False

/-! ## The answers of rtc-service -/

/-- A request is answered with the type that is expected for it. -/
theorem expectedFor_eq (r : Request) :
    expectedFor r = none ∨ expectedFor r = some (ClientRequest.of r).respType := by
  cases r <;> simp [expectedFor, expectedResponseType, ClientRequest.type, ClientRequest.respType]

/-- The answer to a request has the type of the request. -/
theorem respType_of_answers {s : Server} {m : Moment} {r : Request} {n : ℕ} {x : Sent}
    (hx : x ∈ arriving (some n) (s.receive m centralConn (.request centralServiceName (.of r))).2)
    (ha : x.answers ≠ none) :
    x.answers = some n ∧ x.response.respType = (ClientRequest.of r).respType := by
  obtain ⟨d, hd, rfl⟩ := List.mem_map.mp hx
  have hd := (List.mem_filter.mp hd).1
  have hanswer : d.kind = .answer := by
    by_contra hne
    exact ha (if_neg hne)
  refine ⟨if_pos hanswer, ?_⟩
  rw [Server.receive_request] at hd
  obtain ⟨rest, hrespond, hrest⟩ := Server.respond_deliveries _ m centralConn
    (ClientRequest.of r).type (handleRequest m centralServiceName s.rooms (.of r)).2
  rw [hrespond] at hd
  rcases List.mem_append.mp hd with hd | hd
  · split at hd
    · have hkind := (Server.mem_replayTo hd).1
      rw [hanswer] at hkind
      cases hkind
    · cases hd
  · rw [(hrest d hd).1, Handled.respType_answer, respType_handleRequest]

/-- What other connections cause answers nothing. -/
theorem answers_arriving_none {ds : List Delivery} {x : Sent} (hx : x ∈ arriving none ds) :
    x.answers = none := by
  obtain ⟨d, -, rfl⟩ := List.mem_map.mp hx
  simp

/-- What arrives with a number answers the request that rtc-service just handled. -/
theorem arrivals_answers {l : Link} {e : LinkEvent} {x : Sent} {n : ℕ} (hx : x ∈ l.arrivals e)
    (ha : x.answers = some n) : ∃ r, (n, r) ∈ l.requests ∧
      x.response.respType = (ClientRequest.of r).respType := by
  cases e with
  | handle m =>
    dsimp only [Link.arrivals] at hx
    cases hrequests : l.requests with
    | nil =>
      simp only [hrequests] at hx
      cases hx
    | cons request rest =>
      obtain ⟨k, r⟩ := request
      simp only [hrequests] at hx
      obtain ⟨hk, htype⟩ := respType_of_answers hx (by simp [ha])
      obtain rfl : n = k := Option.some.inj (ha.symm.trans hk)
      exact ⟨r, List.mem_cons_self, htype⟩
  | other m conn msg =>
    dsimp only [Link.arrivals] at hx
    split at hx
    · cases hx
    · simp [answers_arriving_none hx] at ha
  | _ => cases hx

/-! ## The numbers of the requests -/

/-- The numbers are those of the calls so far, and the answer to the call that waits has the type
that it expects. -/
structure Numbered (l : Link) : Prop where
  unread : ∀ x ∈ l.unread, ∀ n, x.answers = some n → n < l.calls
  requests : ∀ q ∈ l.requests, q.1 < l.calls
  call : ∀ c, l.call = some c → c.number < l.calls
  answer : ∀ c, l.call = some c → ∀ x ∈ l.unread, x.answers = some c.number → c.takes x = true
  request : ∀ c, l.call = some c → ∀ q ∈ l.requests, q.1 = c.number →
    c.expectedType = expectedFor q.2

/-- At first no message is under way. -/
theorem numbered_start (server : Server) : Numbered (.start server) :=
  ⟨by simp [Link.start, Link.unread], by simp [Link.start], by simp [Link.start],
    by simp [Link.start], by simp [Link.start]⟩

/-- A request is answered with a type that its call takes. -/
theorem WaitingCall.takes_of_respType {c : WaitingCall} {r : Request} {x : Sent}
    (hc : c.expectedType = expectedFor r)
    (hx : x.response.respType = (ClientRequest.of r).respType) : c.takes x = true := by
  unfold takes
  rw [hc, hx]
  rcases expectedFor_eq r with h | h <;> simp [h]

/-- Messages that arrive keep the numbers. -/
theorem Numbered.arrive {l l' : Link} {e : LinkEvent} (h : Numbered l)
    (hcalls : l'.calls = l.calls) (hcall : l'.call = l.call)
    (hrequests : ∀ q ∈ l'.requests, q ∈ l.requests)
    (hunread : l'.unread = l.unread ++ l.arrivals e) : Numbered l' := by
  refine ⟨fun x hx n ha => ?_, fun q hq => ?_, fun c hc => ?_, fun c hc x hx ha => ?_,
    fun c hc q hq => ?_⟩
  · rw [hunread] at hx
    rw [hcalls]
    rcases List.mem_append.mp hx with hx | hx
    · exact h.unread x hx n ha
    · obtain ⟨r, hr, -⟩ := arrivals_answers hx ha
      exact h.requests _ hr
  · rw [hcalls]
    exact h.requests q (hrequests q hq)
  · rw [hcalls]
    exact h.call c (hcall ▸ hc)
  · rw [hunread] at hx
    rcases List.mem_append.mp hx with hx | hx
    · exact h.answer c (hcall ▸ hc) x hx ha
    · obtain ⟨r, hr, htype⟩ := arrivals_answers hx ha
      exact WaitingCall.takes_of_respType (h.request c (hcall ▸ hc) _ hr rfl) htype
  · exact h.request c (hcall ▸ hc) q (hrequests q hq)

/-- One call waits at a time. -/
theorem step_send_of_waiting {l : Link} {c : WaitingCall} (hcall : l.call = some c) (r : Request) :
    l.step (.send r) = l := by simp [Link.step, hcall]

/-- A new call takes the next number. -/
theorem step_send_of_idle {l : Link} (hcall : l.call = none) (r : Request) :
    l.step (.send r) = { l with
      calls := l.calls + 1
      requests := l.requests ++ [(l.calls, r)]
      call := some ⟨l.calls, expectedFor r⟩ } := by simp [Link.step, hcall]

/-- A call that begins takes a new number. -/
theorem Numbered.send {l : Link} (h : Numbered l) (r : Request) : Numbered (l.step (.send r)) := by
  cases hcall : l.call with
  | some c => rwa [step_send_of_waiting hcall]
  | none =>
    rw [step_send_of_idle hcall]
    refine ⟨fun x hx n ha => Nat.lt_succ_of_lt (h.unread x hx n ha), fun q hq => ?_, ?_, ?_, ?_⟩
    · rcases List.mem_append.mp hq with hq | hq
      · exact Nat.lt_succ_of_lt (h.requests q hq)
      · rw [List.mem_singleton] at hq
        subst hq
        exact Nat.lt_succ_self _
    · rintro c ⟨⟩
      exact Nat.lt_succ_self _
    · rintro c ⟨⟩ x hx ha
      exact absurd (h.unread x hx _ ha) (Nat.lt_irrefl _)
    · rintro c ⟨⟩ q hq hnumber
      rcases List.mem_append.mp hq with hq | hq
      · exact absurd (hnumber ▸ h.requests q hq) (Nat.lt_irrefl _)
      · rw [List.mem_singleton] at hq
        subst hq
        rfl

/-- Taking messages off keeps the numbers. -/
theorem Numbered.fewer {l l' : Link} (h : Numbered l) (hcalls : l'.calls = l.calls)
    (hrequests : l'.requests = l.requests) (hcall : ∀ c, l'.call = some c → l.call = some c)
    (hunread : ∀ x ∈ l'.unread, x ∈ l.unread) : Numbered l' := by
  refine ⟨fun x hx => ?_, ?_, fun c hc => ?_, fun c hc x hx => ?_, fun c hc => ?_⟩
  · rw [hcalls]
    exact h.unread x (hunread x hx)
  · rw [hcalls, hrequests]
    exact h.requests
  · rw [hcalls]
    exact h.call c (hcall c hc)
  · exact h.answer c (hcall c hc) x (hunread x hx)
  · rw [hrequests]
    exact h.request c (hcall c hc)

/-- Every event keeps the numbers. -/
theorem Numbered.step {l : Link} (h : Numbered l) (e : LinkEvent) : Numbered (l.step e) := by
  cases e with
  | send r => exact h.send r
  | handle m =>
    exact h.arrive rfl rfl (fun q hq => List.mem_of_mem_tail hq) (l.unread_step _ (by simp))
  | other m conn msg => exact h.arrive rfl rfl (fun q hq => hq) (l.unread_step _ (by simp))
  | connect conn name => exact h.arrive rfl rfl (fun q hq => hq) (l.unread_step _ (by simp))
  | disconnect conn => exact h.arrive rfl rfl (fun q hq => hq) (l.unread_step _ (by simp))
  | read =>
    obtain ⟨hcalls, hrequests, hcall, -⟩ := l.reading_frame (Or.inl rfl)
    exact h.fewer hcalls hrequests (fun c hc => hcall ▸ hc) fun x hx => l.unread_read ▸ hx
  | pass =>
    obtain ⟨hcalls, hrequests, hcall, -⟩ := l.reading_frame (Or.inr rfl)
    exact h.fewer hcalls hrequests (fun c hc => hcall ▸ hc) fun x hx => l.unread_pass ▸ hx
  | take =>
    -- A call takes the head of what is unread, and is over when it keeps it.
    rcases l.take_cases with hsame | ⟨c, x, rest, hcall, -, hunread, hstep⟩
    · rwa [hsame]
    · have htail : ∀ y ∈ (l.step .take).unread, y ∈ l.unread := fun y hy => by
        rw [hunread]
        exact List.mem_cons_of_mem _ hy
      rw [hstep] at htail ⊢
      split at htail
      · rw [if_pos ‹_›]
        exact h.fewer rfl rfl (fun c' hc => by cases hc) htail
      · rw [if_neg ‹_›]
        exact h.fewer rfl rfl (fun c' hc => hc) htail
  | timeout => exact h.fewer rfl rfl (fun c hc => by cases hc) fun x hx => hx

/-! ## The first message that a call takes -/

/-- The first element with a property has another one, exactly when no element before the first with
the other property has the former. -/
theorem find?_imp_iff_takeWhile {α : Type} {p q : α → Bool} {xs : List α}
    (h : ∀ x ∈ xs, q x = true → p x = true) :
    (∀ x, xs.find? p = some x → q x = true) ↔
      ∀ x ∈ xs.takeWhile fun x => !q x, p x = false := by
  induction xs with
  | nil => simp
  | cons y xs ih =>
    have ih := ih fun x hx => h x (List.mem_cons_of_mem _ hx)
    cases hp : p y with
    | true => cases hq : q y <;> simp [hp, hq]
    | false =>
      have hq : q y = false := by
        by_contra hq
        rw [Bool.not_eq_false] at hq
        rw [h y List.mem_cons_self hq] at hp
        cases hp
      simpa [hp, hq] using ih

/-- Whatever arrives, the call that waits is due its answer exactly when it is undisturbed. -/
theorem due_arrive_iff {l l' : Link} {e : LinkEvent} (h : Numbered l) (h' : Numbered l')
    (hdue : l.Due) (hcall : l'.call = l.call) (hunread : l'.unread = l.unread ++ l.arrivals e) :
    l'.Due ↔ l.Undisturbed (l.arrivals e) := by
  unfold Link.Due Link.Undisturbed
  rw [hcall]
  refine forall_congr' fun c => imp_congr_right fun hc => ?_
  have hanswers : ∀ x ∈ l'.unread, decide (x.answers = some c.number) = true → c.takes x = true :=
    fun x hx ha => h'.answer c (hcall ▸ hc) x hx (of_decide_eq_true ha)
  cases hfirst : l.unread.find? c.takes with
  | some y =>
    -- the answer has arrived before, and comes first
    have hy : y.answers = some c.number := hdue c hc y hfirst
    refine iff_of_true (fun x hx => ?_) (Or.inl ⟨y, List.mem_of_find?_eq_some hfirst, hy⟩)
    rw [hunread, List.find?_append, hfirst, Option.some_or] at hx
    cases hx
    exact hy
  | none =>
    have hnone : ¬ ∃ x ∈ l.unread, x.answers = some c.number := by
      rintro ⟨x, hx, ha⟩
      exact List.find?_eq_none.mp hfirst x hx (h.answer c hc x hx ha)
    have hlist := find?_imp_iff_takeWhile (p := c.takes)
      (q := fun x => decide (x.answers = some c.number))
      fun x hx => hanswers x (hunread ▸ List.mem_append_right _ hx)
    rw [or_iff_right hnone, hunread, List.find?_append, hfirst, Option.none_or]
    simpa using hlist

/-- A call that begins is due its answer exactly when nothing is left that it would take. -/
theorem due_send_iff {l : Link} (h : Numbered l) (hdue : l.Due) (r : Request) :
    (l.step (.send r)).Due ↔ Unmistaken l (.send r) := by
  cases hcall : l.call with
  | some c =>
    rw [step_send_of_waiting hcall]
    refine iff_of_true hdue fun hnone => ?_
    rw [hcall] at hnone
    cases hnone
  | none =>
    rw [step_send_of_idle hcall]
    constructor
    · intro hdue' _ x hx
      -- What is left carries an older number, and so the call would take it as its answer.
      by_contra htakes
      rw [Bool.not_eq_false] at htakes
      cases hfind : l.unread.find? (WaitingCall.mk l.calls (expectedFor r)).takes with
      | none => exact List.find?_eq_none.mp hfind x hx htakes
      | some y =>
        have hy := hdue' ⟨l.calls, expectedFor r⟩ rfl y hfind
        exact absurd (h.unread y (List.mem_of_find?_eq_some hfind) _ hy) (Nat.lt_irrefl _)
    · rintro hclear c ⟨⟩ x hx
      have hmem := List.mem_of_find?_eq_some hx
      have htakes := List.find?_some hx
      rw [hclear hcall x hmem] at htakes
      cases htakes

/-- While nothing arrives, the call that waits stays due its answer. -/
theorem Link.Due.take {l : Link} (hdue : l.Due) : (l.step .take).Due := by
  rcases l.take_cases with hsame | ⟨c, x, rest, hcall, -, hunread, hstep⟩
  · rwa [hsame]
  · intro c' hc' y hy
    cases htakes : c.takes x with
    | true =>
      rw [hstep, if_pos htakes] at hc'
      cases hc'
    | false =>
      have hsame : (l.step .take).call = l.call := by rw [hstep, if_neg (by simp [htakes])]
      rw [hsame, hcall] at hc'
      cases hc'
      refine hdue c hcall y ?_
      rw [hunread, List.find?_cons_of_neg (by simp [htakes])]
      exact hy

/-- A call that is due its answer takes it. -/
theorem Link.Due.correlated_take {l : Link} (hdue : l.Due) (h : l.Correlated) :
    (l.step .take).Correlated := by
  rcases l.take_cases with hsame | ⟨c, x, rest, hcall, -, hunread, hstep⟩
  · rwa [hsame]
  · rw [hstep]
    cases htakes : c.takes x with
    | true =>
      have hx : x.answers = some c.number := by
        refine hdue c hcall x ?_
        rw [hunread, List.find?_cons_of_pos htakes]
      intro y hy
      rcases List.mem_append.mp hy with hy | hy
      · exact h y hy
      · rw [List.mem_singleton] at hy
        subst hy
        exact hx
    | false => exact h

/-! ## Runs -/

/-- Only a call that takes its response returns. -/
theorem returned_step (l : Link) {e : LinkEvent} (h : e ≠ .take) :
    (l.step e).returned = l.returned := by
  cases e with
  | send r => cases hcall : l.call <;> simp [Link.step, hcall]
  | read => exact (l.reading_frame (Or.inl rfl)).2.2.2
  | pass => exact (l.reading_frame (Or.inr rfl)).2.2.2
  | take => exact absurd rfl h
  | _ => rfl

/-- One event: the call that waits stays due its answer, and no call returns anything else, exactly
when the event is unmistaken. -/
theorem due_correlated_step_iff {l : Link} (e : LinkEvent) (h : Numbered l)
    (hl : l.Due ∧ l.Correlated) :
    (l.step e).Due ∧ (l.step e).Correlated ↔ Unmistaken l e := by
  obtain ⟨hdue, hcorrelated⟩ := hl
  have hkeep : e ≠ .take → (l.step e).Correlated := fun he x hx =>
    hcorrelated x (returned_step l he ▸ hx)
  have hquiet : l.arrivals e = [] → l.Undisturbed (l.arrivals e) := fun hnil c _ => by
    rw [hnil]
    exact Or.inr (by simp)
  cases e with
  | send r => exact (and_iff_left (hkeep (by simp))).trans (due_send_iff h hdue r)
  | handle m | other m conn msg | connect conn name | disconnect conn =>
    exact (and_iff_left (hkeep (by simp))).trans
      (due_arrive_iff h (h.step _) hdue rfl (l.unread_step _ (by simp)))
  | read =>
    refine iff_of_true ⟨fun c hc x hx => ?_, hkeep (by simp)⟩ (hquiet rfl)
    exact hdue c ((l.reading_frame (Or.inl rfl)).2.2.1 ▸ hc) x (l.unread_read ▸ hx)
  | pass =>
    refine iff_of_true ⟨fun c hc x hx => ?_, hkeep (by simp)⟩ (hquiet rfl)
    exact hdue c ((l.reading_frame (Or.inr rfl)).2.2.1 ▸ hc) x (l.unread_pass ▸ hx)
  | take => exact iff_of_true ⟨hdue.take, hdue.correlated_take hcorrelated⟩ (hquiet rfl)
  | timeout => exact iff_of_true ⟨fun c hc => (by cases hc), hkeep (by simp)⟩ (hquiet rfl)

/-- The steps that the messages on the way still have to take. -/
def Link.remaining (l : Link) : ℕ :=
  3 * l.socket.length + 2 * l.hand.toList.length + l.ingress.length

/-- A message that is not the answer and comes first is returned in the end. -/
theorem exists_mistaken {l : Link} {c : WaitingCall} {x : Sent} (hcall : l.call = some c)
    (hfind : l.unread.find? c.takes = some x) (hx : x.answers ≠ some c.number) :
    ∃ es, (∀ e ∈ es, e.Local) ∧ ¬ (run Link.step l es).Correlated := by
  induction hn : l.remaining using Nat.strong_induction_on generalizing l with
  | _ n ih =>
    -- every message before `x` is moved on, or dropped by the call
    have onward : ∀ e : LinkEvent, e.Local → (l.step e).call = some c →
        (l.step e).unread.find? c.takes = some x → (l.step e).remaining < n →
        ∃ es, (∀ e ∈ es, e.Local) ∧ ¬ (run Link.step l es).Correlated := by
      intro e he hcall' hfind' hless
      obtain ⟨es, hes, hbad⟩ := ih _ hless hcall' hfind' rfl
      exact ⟨e :: es, List.forall_mem_cons.mpr ⟨he, hes⟩, hbad⟩
    cases hingress : l.ingress with
    | cons y rest =>
      have hstep : l.step .take = if c.takes y then
          { l with ingress := rest, call := none, returned := l.returned ++ [⟨c.number, y⟩] }
        else { l with ingress := rest } := by simp [Link.step, hcall, hingress]
      have hunread : l.unread = y :: ({ l with ingress := rest } : Link).unread := by
        simp [Link.unread, hingress]
      cases htakes : c.takes y with
      | true =>
        rw [hunread, List.find?_cons_of_pos htakes] at hfind
        obtain rfl : y = x := Option.some.inj hfind
        refine ⟨[.take], by simp [LinkEvent.Local], fun hall => hx ?_⟩
        have hret := hall ⟨c.number, y⟩
        rw [run_cons, run_nil, hstep, if_pos htakes] at hret
        exact hret (by simp)
      | false =>
        rw [hunread, List.find?_cons_of_neg (by simp [htakes])] at hfind
        have hdrop : l.step .take = { l with ingress := rest } := by
          rw [hstep, if_neg (by simp [htakes])]
        refine onward .take trivial (by rw [hdrop]; exact hcall) (by rw [hdrop]; exact hfind) ?_
        rw [hdrop, ← hn]
        simp [Link.remaining, hingress]
    | nil =>
      cases hhand : l.hand with
      | some y =>
        have hstep : l.step .pass = { l with ingress := [y], hand := none } := by
          simp [Link.step, hhand, hingress, ingressCapacity]
        refine onward .pass trivial (by rw [hstep]; exact hcall) ?_ ?_
        · rw [l.unread_pass]
          exact hfind
        · rw [hstep, ← hn]
          simp [Link.remaining, hhand, hingress]
      | none =>
        cases hsocket : l.socket with
        | nil => simp [Link.unread, hingress, hhand, hsocket] at hfind
        | cons y socket =>
          have hstep : l.step .read = { l with hand := some y, socket := socket } := by
            simp [Link.step, hhand, hsocket]
          refine onward .read trivial (by rw [hstep]; exact hcall) ?_ ?_
          · rw [l.unread_read]
            exact hfind
          · rw [hstep, ← hn]
            simp [Link.remaining, hhand, hsocket]
            omega

/-- While central-service takes what has arrived, nothing more arrives. -/
theorem LinkEvent.Local.unmistaken {l : Link} {e : LinkEvent} (h : e.Local) : Unmistaken l e := by
  cases e with
  | read => exact fun c _ => Or.inr (by simp [Link.arrivals])
  | pass => exact fun c _ => Or.inr (by simp [Link.arrivals])
  | take => exact fun c _ => Or.inr (by simp [Link.arrivals])
  | _ => exact h.elim

/-- The numbers are in order along every run. -/
theorem numbered_run (server : Server) (es : List LinkEvent) :
    Numbered (run Link.step (.start server) es) :=
  (invariant_along (I := Numbered) (fun _ e h _ => h.step e) (numbered_start server)
    (Along.of_forall fun _ _ => trivial)).last

/-- In a run, however far the calls get that wait, each returns the answer to its own request,
exactly when every event is unmistaken. -/
theorem correlated_iff (server : Server) (es : List LinkEvent) :
    (∀ es' onward, es' <+: es → (∀ e ∈ onward, e.Local) →
      (run Link.step (.start server) (es' ++ onward)).Correlated) ↔
      Along Link.step Unmistaken (.start server) es := by
  have hstart : (Link.start server).Due ∧ (Link.start server).Correlated :=
    ⟨fun c hc => (by cases hc), fun x hx => (by cases hx)⟩
  have hthroughout : Throughout Link.step (fun l => l.Due ∧ l.Correlated) (.start server) es ↔
      Along Link.step Unmistaken (.start server) es :=
    throughout_iff_along (fun _ e h _ => h.step e)
      (fun _ e h _ hl => due_correlated_step_iff e h hl) (numbered_start server) hstart
      (Along.of_forall fun _ _ => trivial : Along Link.step (fun _ _ => True) _ _)
  -- Correlation of every continuation by local steps is `Due` together with correlation now.
  rw [← hthroughout]
  constructor
  · intro hall es' hprefix
    refine ⟨fun c hc x hx => ?_, ?_⟩
    · -- A call that would take something else gets that far by itself.
      by_contra hne
      obtain ⟨onward, honward, hbad⟩ := exists_mistaken hc hx hne
      refine hbad ?_
      rw [← run_append]
      exact hall es' onward hprefix honward
    · have hnow := hall es' [] hprefix (by simp)
      rwa [List.append_nil] at hnow
  · intro hdue es' onward hprefix honward
    rw [run_append]
    refine (invariant_along (I := fun l => Numbered l ∧ l.Due ∧ l.Correlated)
      (fun l e hl he => ?_)
      ⟨numbered_run server es', hdue es' hprefix⟩ (Along.of_mem honward)).last.2.2
    exact ⟨hl.1.step e, (due_correlated_step_iff e hl.1 hl.2).mpr he.unmistaken⟩

/-! ## The second user of a room -/

/-- Two users join a room, one after the other. -/
def secondJoin : List LinkEvent :=
  [.send (.joinRoom (utf8 "alice") "room" (utf8 "Alice") false (some false)),
    .handle (Moment.plain 0), .read, .pass, .take,
    .send (.joinRoom (utf8 "bob") "room" (utf8 "Bob") false (some false)),
    .handle (Moment.plain 0), .read, .pass, .take]

/-- The call for the second user returns the message about the first, which the room sends again. -/
theorem not_correlated :
    ¬ (run Link.step (.start ⟨fun _ => none, [(centralConn, [])]⟩) secondJoin).Correlated := by
  decide +kernel

end Bsg.Central
