import Bsg.Central.RoomEvents

/-!
# The seniority of members

When the admin of a room leaves it, the member who has been there for the longest time should follow
(`Rightful`). The service reads that off the scores in the join timestamps. A request to join writes
the score before it knows whether the user is a member already, so a refused request makes a member
look younger than he is. `Memberships` keeps, beside the state, when each membership began;
`seniorityKept_iff` says that the scores agree with it exactly along the runs in which no member
asks to join again in a later second.
-/

namespace Bsg.Central

open Bsg.Foundations

/-- The state, with the times at which the members of a room became members. -/
structure Memberships where
  world : World
  since : AuthID → Option ℤ

/-- A membership begins with the event after which the user is a member for the first time, and ends
with the event after which he is not. -/
def Memberships.step (roomID : RoomID) (m : Memberships) (e : Env × RoomEvent) : Memberships where
  world := m.world.serve e
  since userID :=
    if (m.world.serve e).isMember roomID userID then
      if m.world.isMember roomID userID then m.since userID else some e.1.now
    else none

/-- The rightful admin is a member, and nobody became a member before him; ties are broken
lexicographically. -/
def Rightful (roomID : RoomID) (m : Memberships) : Prop :=
  ∀ env admin, ((findRightfulRoomAdmin env roomID).run m.world).1 = .ok admin →
    ∃ t, m.since admin = some t ∧
      ∀ userID t', m.since userID = some t' → t < t' ∨ t = t' ∧ admin ≤ userID

/-- Everybody's score tells since when he is a member, and so the rightful admin is the senior
one. -/
structure SeniorityKept (roomID : RoomID) (m : Memberships) : Prop where
  recorded : ∀ userID, (m.world.redis.joinTimestamp roomID).score? userID = m.since userID
  rightful : Rightful roomID m

/-- A member asks to join again only in the second of which his score tells, unless the request does
not come so far as to write it. -/
def KeepsSeniority (roomID : RoomID) (m : Memberships) (e : Env × RoomEvent) : Prop :=
  match e.2 with
  | .joinRoom roomID' userID =>
    roomID' = roomID → (∃ room, Findable e.1 roomID m.world.db room) ∧ e.1.fails .zaddJoin = false →
      m.world.isMember roomID userID →
        (m.world.redis.joinTimestamp roomID).score? userID = some e.1.now
  | _ => True

section Seniority

variable {roomID : RoomID} {m : Memberships}

/-- The scores decide who is the rightful admin. -/
theorem rightful_of_recorded
    (h : ∀ userID, (m.world.redis.joinTimestamp roomID).score? userID = m.since userID) :
    Rightful roomID m := by
  intro env admin hrun
  unfold findRightfulRoomAdmin at hrun
  cases hrange : env.fails .zrangeAdmin with
  | true =>
    rw [hrange] at hrun
    cases hrun
  | false =>
    rw [hrange, Call.io_false, Call.run_read_bind] at hrun
    cases hfirst : (m.world.redis.joinTimestamp roomID).range with
    | nil =>
      rw [SortedSet.members, hfirst] at hrun
      cases hrun
    | cons e rest =>
      rw [SortedSet.members, hfirst] at hrun
      cases hrun
      have hmem : e ∈ (m.world.redis.joinTimestamp roomID).entries := by
        refine (List.perm_insertionSort SortedSet.before _).mem_iff.mp ?_
        show e ∈ (m.world.redis.joinTimestamp roomID).range
        rw [hfirst]
        exact List.mem_cons_self
      refine ⟨e.2, (h e.1).symm.trans (SortedSet.score?_eq_some.mpr hmem), fun userID t' ht' => ?_⟩
      rw [← h userID, SortedSet.score?_eq_some] at ht'
      exact SortedSet.before_of_range (by rw [hfirst]; rfl) ht'

/-- A member is one who has a score. -/
theorem isMember_iff_score (w : World) (roomID : RoomID) (userID : AuthID) :
    w.isMember roomID userID ↔ ((w.redis.joinTimestamp roomID).score? userID).isSome := by
  rw [World.isMember, SortedSet.score?_isSome]

/-- After an event, the score of one user tells since when he is a member. -/
def Recorded (roomID : RoomID) (m : Memberships) (e : Env × RoomEvent) (userID : AuthID) : Prop :=
  ((m.world.serve e).redis.joinTimestamp roomID).score? userID = (m.step roomID e).since userID

/-- A request to leave takes scores away, and changes none. -/
theorem leaveRoom_scores (env : Env) (roomID' : RoomID) (userID : AuthID) (roomID : RoomID)
    (u : AuthID) (w : World) :
    ((((leaveRoom env roomID' userID).run w).2.redis.joinTimestamp roomID).score? u =
        (w.redis.joinTimestamp roomID).score? u) ∨
      (((leaveRoom env roomID' userID).run w).2.redis.joinTimestamp roomID).score? u = none := by
  have hleft : ((w.left env roomID' userID).redis.joinTimestamp roomID).score? u =
      (w.redis.joinTimestamp roomID).score? u ∨
        ((w.left env roomID' userID).redis.joinTimestamp roomID).score? u = none := by
    show (Function.update w.redis.joinTimestamp roomID' _ roomID).score? u = _ ∨
      (Function.update w.redis.joinTimestamp roomID' _ roomID).score? u = none
    obtain rfl | hroom := eq_or_ne roomID' roomID
    · rw [Function.update_self]
      by_cases hu : u = userID
      · exact Or.inr (by rw [hu, SortedSet.score?_remove_self])
      · exact Or.inl (SortedSet.score?_remove_of_ne _ hu)
    · exact Or.inl (by rw [Function.update_of_ne (Ne.symm hroom)])
  rcases leaveRoom_members env roomID' userID w with ⟨hsame, -⟩ | ⟨room, -, -, ⟨-, hsame⟩ |
    ⟨-, hsame⟩⟩
  · exact Or.inl (by rw [hsame])
  · rwa [hsame.joinTimestamp]
  · -- The room that is deleted loses all its scores.
    rw [hsame.joinTimestamp]
    show (Function.update (w.left env roomID' userID).redis.joinTimestamp room.id .empty
      roomID).score? u = _ ∨ (Function.update (w.left env roomID' userID).redis.joinTimestamp room.id
        .empty roomID).score? u = none
    obtain rfl | hroom := eq_or_ne room.id roomID
    · rw [Function.update_self]
      exact Or.inr rfl
    · rwa [Function.update_of_ne (Ne.symm hroom)]

section Step

variable {e : Env × RoomEvent} {userID : AuthID}

/-- A score that does not change is as right as it was. -/
theorem recorded_of_same
    (h : (m.world.redis.joinTimestamp roomID).score? userID = m.since userID)
    (hsame : ((m.world.serve e).redis.joinTimestamp roomID).score? userID =
      (m.world.redis.joinTimestamp roomID).score? userID) : Recorded roomID m e userID := by
  have hmember := isMember_iff_score m.world roomID userID
  have hmember' := isMember_iff_score (m.world.serve e) roomID userID
  rw [hsame, ← hmember] at hmember'
  show _ = ite _ (ite _ _ _) _
  rw [hsame]
  by_cases hm : m.world.isMember roomID userID
  · rw [if_pos (hmember'.mpr hm), if_pos hm, h]
  · rw [if_neg (mt hmember'.mp hm)]
    exact Option.not_isSome_iff_eq_none.mp (mt hmember.mpr hm)

/-- Who is not a member any more has no score. -/
theorem recorded_of_none
    (hnone : ((m.world.serve e).redis.joinTimestamp roomID).score? userID = none) :
    Recorded roomID m e userID := by
  have hmember' := isMember_iff_score (m.world.serve e) roomID userID
  rw [hnone] at hmember'
  show _ = ite _ (ite _ _ _) _
  rw [hnone, if_neg fun hm => by simpa using hmember'.mp hm]

/-- A score that is written now is right exactly when the user was no member, or became one now. -/
theorem recorded_of_written
    (h : (m.world.redis.joinTimestamp roomID).score? userID = m.since userID)
    (hnow : ((m.world.serve e).redis.joinTimestamp roomID).score? userID = some e.1.now) :
    Recorded roomID m e userID ↔ (m.world.isMember roomID userID →
      (m.world.redis.joinTimestamp roomID).score? userID = some e.1.now) := by
  have hmember' : (m.world.serve e).isMember roomID userID := by
    rw [isMember_iff_score, hnow]
    rfl
  have hsince : (m.step roomID e).since userID =
      if m.world.isMember roomID userID then m.since userID else some e.1.now := if_pos hmember'
  unfold Recorded
  rw [hnow, hsince, h]
  by_cases hm : m.world.isMember roomID userID
  · rw [if_pos hm]
    exact ⟨fun heq _ => heq.symm, fun heq => (heq hm).symm⟩
  · rw [if_neg hm]
    exact iff_of_true rfl fun hbad => absurd hbad hm

/-- The scores after an event are right exactly when everybody's is. -/
theorem seniorityKept_step_iff :
    SeniorityKept roomID (m.step roomID e) ↔ ∀ userID, Recorded roomID m e userID :=
  ⟨fun h => h.recorded, fun h => ⟨h, rightful_of_recorded h⟩⟩

end Step

/-- A request to join or to leave keeps the scores right exactly when it is not a late second join
of a member. -/
theorem seniorityKept_step (e : Env × RoomEvent) (hkind : e.2.isJoinOrLeave = true)
    (h : SeniorityKept roomID m) :
    SeniorityKept roomID (m.step roomID e) ↔ KeepsSeniority roomID m e := by
  rw [seniorityKept_step_iff]
  obtain ⟨env, event⟩ := e
  cases event with
  | joinRoom roomID' userID =>
    have hserve : m.world.serve (env, .joinRoom roomID' userID) =
        ((joinRoom env roomID' userID).run m.world).2 := rfl
    rcases joinRoom_members env roomID' userID m.world with ⟨hsame, hnot⟩ | ⟨hfind, hzadd, hsame⟩
    · refine iff_of_true (fun u => recorded_of_same (h.recorded u) (by rw [hserve, hsame])) ?_
      rintro rfl ⟨⟨room, hroom⟩, hzadd⟩
      have hbad := hnot room hroom
      rw [show env.fails .zaddJoin = false from hzadd] at hbad
      cases hbad
    · -- The join writes the score of its user in its room, and nothing else.
      have hscores : ((m.world.serve (env, .joinRoom roomID' userID)).redis.joinTimestamp roomID) =
          Function.update m.world.redis.joinTimestamp roomID'
            ((m.world.redis.joinTimestamp roomID').add userID env.now) roomID := by
        rw [hserve, hsame.joinTimestamp]
        rfl
      obtain rfl | hroom := eq_or_ne roomID' roomID
      · rw [Function.update_self] at hscores
        have huser := recorded_of_written (e := (env, .joinRoom roomID' userID)) (h.recorded userID)
          (by rw [hscores]; exact SortedSet.score?_add_self _ _ _)
        refine ⟨fun hall _ _ => huser.mp (hall userID), fun hkeep u => ?_⟩
        by_cases hu : u = userID
        · rw [hu]
          exact huser.mpr (hkeep rfl ⟨hfind, hzadd⟩)
        · refine recorded_of_same (h.recorded u) ?_
          rw [hscores]
          exact SortedSet.score?_add_of_ne _ _ hu
      · rw [Function.update_of_ne (Ne.symm hroom)] at hscores
        refine iff_of_true (fun u => recorded_of_same (h.recorded u) (by rw [hscores])) ?_
        exact fun heq => absurd heq hroom
  | leaveRoom roomID' userID =>
    have hserve : m.world.serve (env, .leaveRoom roomID' userID) =
        ((leaveRoom env roomID' userID).run m.world).2 := rfl
    refine iff_of_true (fun u => ?_) trivial
    rcases leaveRoom_scores env roomID' userID roomID u m.world with hsame | hnone
    · exact recorded_of_same (h.recorded u) (by rw [hserve, hsame])
    · exact recorded_of_none (by rw [hserve, hnone])
  | _ => cases hkind

end Seniority

/-- Along every run of requests to join and to leave, the scores tell since when everybody is a
member, and the rightful admin is the senior one, exactly when no member asks to join again in a
later second. -/
theorem seniorityKept_iff (roomID : RoomID) (m : Memberships) (es : List (Env × RoomEvent))
    (h : SeniorityKept roomID m) (hkind : ∀ e ∈ es, e.2.isJoinOrLeave = true) :
    Throughout (Memberships.step roomID) (SeniorityKept roomID) m es ↔
      Along (Memberships.step roomID) (KeepsSeniority roomID) m es :=
  throughout_iff_along (I := fun _ => True) (fun _ _ _ _ => trivial)
    (fun _ e _ hkind h => seniorityKept_step e hkind h) trivial h (Along.of_mem hkind)

/-- Nobody is in a room yet. -/
def Memberships.none : Memberships := ⟨.twoRooms, fun _ => .none⟩

/-- Without members nobody is older than another. -/
theorem seniorityKept_none : SeniorityKept roomOne .none :=
  ⟨fun _ => rfl, rightful_of_recorded fun _ => rfl⟩

/-- Two users join a room, and the first one leaves and comes back. -/
def comeBack : List (Env × RoomEvent) :=
  [(Env.faultless 1, .joinRoom roomOne host), (Env.faultless 2, .joinRoom roomOne guest),
    (Env.faultless 3, .leaveRoom roomOne host), (Env.faultless 4, .joinRoom roomOne host)]

/-- Whoever asks to join is no member then. -/
theorem seniorityKept_comeBack :
    Throughout (Memberships.step roomOne) (SeniorityKept roomOne) .none comeBack := by
  refine (seniorityKept_iff roomOne .none comeBack seniorityKept_none (by decide)).mpr
    ⟨?_, ?_, trivial, ?_, trivial⟩
  · exact fun _ _ hmember => absurd hmember (by decide +kernel)
  · exact fun _ _ hmember => absurd hmember (by decide +kernel)
  · exact fun _ _ hmember => absurd hmember (by decide +kernel)

/-- Two users join a room, and the first one asks to join again. -/
def joinAgain : List (Env × RoomEvent) :=
  [(Env.faultless 1, .joinRoom roomOne host), (Env.faultless 2, .joinRoom roomOne guest),
    (Env.faultless 3, .joinRoom roomOne host)]

/-- After the refused request the second user counts as the senior one. -/
theorem not_seniorityKept :
    (SeniorityKept roomOne .none ∧ ∀ e ∈ joinAgain, e.2.isJoinOrLeave = true) ∧
      ¬ Throughout (Memberships.step roomOne) (SeniorityKept roomOne) .none joinAgain := by
  refine ⟨⟨seniorityKept_none, by decide⟩, fun h => ?_⟩
  let last := run (Memberships.step roomOne) .none joinAgain
  have hguest : last.since guest = some 2 := by decide +kernel
  have hhost : last.since host = some 1 := by decide +kernel
  have hadmin : ((findRightfulRoomAdmin (Env.faultless 4) roomOne).run last.world).1 = .ok guest := by
    decide +kernel
  obtain ⟨t, ht, hfirst⟩ := h.last.rightful (Env.faultless 4) guest hadmin
  have h2 : t = 2 := Option.some.inj (ht.symm.trans hguest)
  have hlater := hfirst host 1 hhost
  omega

end Bsg.Central
