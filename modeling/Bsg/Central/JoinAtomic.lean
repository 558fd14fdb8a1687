import Bsg.Central.Membership

/-!
# Joining a room, all or nothing

A join that returns an error, other than that the user is in the room already, should leave nothing
behind, so that he can simply try again (`JoinsAtomically`). The user is made a member before
everything that can still go wrong, and nothing takes that back: `joinsAtomically_iff` says that a
join is atomic exactly when it is refused before, or everything after goes well. After a join that
stopped half way, each new attempt is refused because the user is a member (`retry_refused`).
-/

namespace Bsg.Central

open Bsg.Foundations

/-- The request makes the user a member of the room. -/
def BecomesMember (env : Env) (roomID : RoomID) (userID : AuthID) (w : World) : Prop :=
  (∃ room, Findable env roomID w.db room) ∧ env.fails .zaddJoin = false ∧
    (w.redis.joinTimestamp roomID).contains userID = false

/-- Nothing of a join remains: members, pointer and participants are as before, and another attempt
ends as it would have ended before. -/
structure NotJoined (roomID : RoomID) (userID : AuthID) (w w' : World) : Prop where
  members : w'.members roomID = w.members roomID
  activeRoom : w'.redis.activeRoom userID = w.redis.activeRoom userID
  participants : w'.db.participants = w.db.participants
  retry : ∀ env, ((joinRoom env roomID userID).run w').1 = ((joinRoom env roomID userID).run w).1

/-- Nothing has happened. -/
theorem NotJoined.refl (roomID : RoomID) (userID : AuthID) (w : World) :
    NotJoined roomID userID w w := ⟨rfl, rfl, rfl, fun _ => rfl⟩

/-- A join that returns an error, other than that the user is in the room already, leaves
nothing. -/
def JoinsAtomically (env : Env) (roomID : RoomID) (userID : AuthID) (w : World) : Prop :=
  ∀ e w', (joinRoom env roomID userID).run w = (.err e, w') → e ≠ alreadyInRoom →
    NotJoined roomID userID w w'

section Join

variable {env : Env} {roomID : RoomID} {userID : AuthID} {w : World}

/-- Who has joined is among the members. -/
theorem contains_joined (env : Env) (roomID : RoomID) (userID : AuthID) (w : World) :
    ((w.joined env roomID userID).redis.joinTimestamp roomID).contains userID = true := by
  show (Function.update w.redis.joinTimestamp roomID _ roomID).contains userID = true
  rw [Function.update_self, SortedSet.contains_add, decide_eq_true rfl, Bool.true_or]

/-- Who became a member can not be as before. -/
theorem not_notJoined {w' : World} (hmember : (w.redis.joinTimestamp roomID).contains userID = false)
    (h : SameMembers (w.joined env roomID userID) w') : ¬ NotJoined roomID userID w w' := by
  intro hnone
  have hjoined : userID ∈ w'.members roomID := by
    rw [World.members, SortedSet.mem_members, h.joinTimestamp]
    exact contains_joined env roomID userID w
  rw [hnone.members, World.members, SortedSet.mem_members, hmember] at hjoined
  cases hjoined

/-- A join is atomic exactly when nothing goes wrong once the user is a member. -/
theorem joinsAtomically_iff (env : Env) (roomID : RoomID) (userID : AuthID) (w : World) :
    JoinsAtomically env roomID userID w ↔
      BecomesMember env roomID userID w → Enterable env (w.db.roundsNamed env roomID) := by
  unfold JoinsAtomically
  rcases joinRoom_cases env roomID userID w with ⟨e, hrun, hnot⟩ | ⟨room, hroom, hzadd,
    ⟨hmember, hrun⟩ | ⟨hmember, o, rs, hrun, ⟨rfl, henter⟩ | ⟨ho, henter⟩⟩⟩
  · -- The request does not reach the members.
    rw [hrun]
    refine iff_of_true ?_ ?_
    · rintro _ _ ⟨⟩ -
      exact NotJoined.refl roomID userID w
    · rintro ⟨⟨room, hroom⟩, hzadd, -⟩
      rw [hnot room hroom] at hzadd
      cases hzadd
  · rw [hrun]
    -- The user was a member already: this refusal is none of the errors in question.
    refine iff_of_true ?_ fun h => ?_
    · rintro _ _ ⟨⟩ hother
      exact absurd rfl hother
    · rw [h.2.2] at hmember
      cases hmember
  · rw [hrun, hroom.roundsNamed]
    refine iff_of_true ?_ fun _ => henter
    rintro _ _ ⟨⟩
  · -- The user is a member, and the request fails.
    rw [hroom.roundsNamed]
    refine iff_of_false (fun hatomic => ?_) fun h => henter (h ⟨⟨room, hroom⟩, hzadd, hmember⟩)
    have hsame := sameMembers_entered env (w.db.roundsOf env.rounds room.id) userID
      (w.joined env roomID userID) rs
    refine not_notJoined hmember hsame ?_
    rcases ho with rfl | rfl
    · exact hatomic _ _ hrun (by decide)
    · exact hatomic _ _ hrun (by decide)

/-- Once a request made the user a member, each new attempt is refused, and brings him no row in the
running round. -/
theorem retry_refused (hbecomes : BecomesMember env roomID userID w) {env' : Env} {room : Room}
    (hroom : Findable env' roomID ((joinRoom env roomID userID).run w).2.db room)
    (hzadd : env'.fails .zaddJoin = false) :
    ∃ w', (joinRoom env' roomID userID).run ((joinRoom env roomID userID).run w).2 =
        (.err alreadyInRoom, w') ∧
      w'.db.participants = ((joinRoom env roomID userID).run w).2.db.participants := by
  set w₁ := ((joinRoom env roomID userID).run w).2 with hw₁
  -- The failed attempt has left the user among the members.
  have hmember : (w₁.redis.joinTimestamp roomID).contains userID = true := by
    rcases joinRoom_cases env roomID userID w with ⟨e, -, hnot⟩ | ⟨room, hroom, -,
      ⟨hmember, -⟩ | ⟨-, o, rs, hrun, -⟩⟩
    · obtain ⟨room, hroom⟩ := hbecomes.1
      have hbad := hnot room hroom
      rw [hbecomes.2.1] at hbad
      cases hbad
    · rw [hbecomes.2.2] at hmember
      cases hmember
    · rw [hw₁, hrun, (sameMembers_entered env (w.db.roundsOf env.rounds room.id) userID
        (w.joined env roomID userID) rs).joinTimestamp]
      exact contains_joined env roomID userID w
  -- So the next one is refused, right after the scores are written.
  rcases joinRoom_cases env' roomID userID w₁ with ⟨e, -, hnot⟩ | ⟨_, -, -,
    ⟨-, hrun⟩ | ⟨hother, -⟩⟩
  · have hbad := hnot room hroom
    rw [hzadd] at hbad
    cases hbad
  · exact ⟨_, hrun, rfl⟩
  · rw [hmember] at hother
    cases hother

end Join

/-- The environment in which rtc-service does not answer in time that a user joined the room. -/
def Env.joinTimeout : Env :=
  { Env.faultless 10 with reply := fun call => if call = .joinRoom then .timeout else .ok }

/-- When rtc-service is too slow, the user gets an error and is a member nevertheless. -/
theorem not_joinsAtomically : ¬ JoinsAtomically .joinTimeout roomOne guest .ready := by
  intro h
  let result := (joinRoom .joinTimeout roomOne guest).run .ready
  have herr : result.1 = .err internalServerError := by decide +kernel
  have hmembers : result.2.members roomOne = [host, guest] := by decide +kernel
  have hbefore : World.ready.members roomOne = [host] := by decide +kernel
  have hnone := (h _ result.2 (Prod.ext herr rfl) (by decide)).members
  rw [hmembers, hbefore] at hnone
  exact absurd hnone (by decide)

end Bsg.Central
