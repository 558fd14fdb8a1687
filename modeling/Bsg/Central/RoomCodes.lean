import Bsg.Central.Lifecycle

/-!
# A short code leads to its room

A room may be joined by its id or by its short code, and a parameter of six bytes is taken for a
code. Ids and codes are drawn at random, and a new room is refused when another room has its id or
its code, so at any time each code leads to one room. A join by the code of a room is then the same
as a join by its id (`codesLead_along`).
-/

namespace Bsg.Central

open Bsg.Foundations

/-- `shortCodeChars` -/
def shortCodeChars : List Char := "ABCDEFGHJKLMNPQRSTUVWXYZ23456789".toList

/-- `generateShortCode`, with the numbers that `rand.Intn` draws. -/
def generateShortCode (draws : Fin 6 → Fin shortCodeChars.length) : String :=
  String.ofList (List.ofFn fun i => shortCodeChars.get (draws i))

/-- A new room draws codes that `generateShortCode` makes. -/
def DrawsCodes (_ : Site) : SiteEvent → Prop
  | .request env (.createNewRoom _ _) =>
    ∀ candidate ∈ env.candidates, ∃ draws, candidate.1 = generateShortCode draws
  | _ => True

/-- For each room, a join by its code does and answers what a join by its id does, as long as the
code can be looked up. -/
def CodesLead (s : Site) : Prop :=
  ∀ room ∈ s.world.db.rooms, ∀ (env : SiteEnv) (userAuthID : AuthID), env.findShortCode = false →
    (joinRoomEndpoint env (s.shortCode room.id) userAuthID).run s =
      (joinRoomEndpoint env room.id userAuthID).run s

/-- The ids and the short codes of the rooms are well formed, and no two rooms share one. -/
structure Site.WellCoded (s : Site) : Prop where
  ids : (s.world.db.rooms.map Room.id).Nodup
  codes : (s.world.db.rooms.map fun room => s.shortCode room.id).Nodup
  sixBytes : ∀ room ∈ s.world.db.rooms, (utf8 (s.shortCode room.id)).length = 6

/-! ## Codes -/

/-- Each letter of a code is one byte. -/
theorem length_utf8EncodeChar_of_mem : ∀ c ∈ shortCodeChars, (String.utf8EncodeChar c).length = 1 := by
  -- the quantifier is over a list, not over all characters
  have hall : (shortCodeChars.all fun c => (String.utf8EncodeChar c).length == 1) = true := by decide
  intro c hc
  exact beq_iff_eq.mp (List.all_eq_true.mp hall c hc)

/-- A short code has six bytes. -/
theorem length_utf8_generateShortCode (draws : Fin 6 → Fin shortCodeChars.length) :
    (utf8 (generateShortCode draws)).length = 6 := by
  have hone : ∀ l : List Char, (∀ c ∈ l, c ∈ shortCodeChars) →
      (l.flatMap String.utf8EncodeChar).length = l.length := by
    intro l hl
    induction l with
    | nil => rfl
    | cons c l ih =>
      rw [List.flatMap_cons, List.length_append, List.length_cons,
        length_utf8EncodeChar_of_mem c (hl c List.mem_cons_self),
        ih fun c' hc' => hl c' (List.mem_cons_of_mem _ hc'), Nat.add_comm]
  unfold utf8 generateShortCode
  rw [String.toList_ofList, hone, List.length_ofFn]
  intro c hc
  obtain ⟨i, rfl⟩ := List.mem_ofFn.mp hc
  exact List.get_mem _ _

/-! ## Rooms -/

section Rooms

variable {w : World}

/-- Rooms are only taken away, up to their admins. -/
def FewerRooms (w w' : World) : Prop :=
  (w'.db.rooms.map Room.id).Sublist (w.db.rooms.map Room.id)

/-- The rooms are those that they are. -/
theorem FewerRooms.refl (w : World) : FewerRooms w w := List.Sublist.refl _

/-- Rooms that go in two steps go in both. -/
theorem FewerRooms.trans (w₁ w₂ w₃ : World) (h : FewerRooms w₁ w₂) (h' : FewerRooms w₂ w₃) :
    FewerRooms w₁ w₃ := List.Sublist.trans h' h

/-- When the rooms stay, none is new. -/
theorem SameRooms.fewer {w w' : World} (h : SameRooms w w') : FewerRooms w w' := by
  unfold FewerRooms
  rw [show w'.db.rooms = w.db.rooms from h]

/-- A call that keeps the rooms makes none. -/
theorem fewerRooms_of_keeps {α : Type} {x : Service α}
    (h : Call.Keeps (fun w : World => w.db.rooms) x) : Call.Within FewerRooms x :=
  fun w => SameRooms.fewer (h w)

/-- Deleting a room makes none. -/
theorem fewerRooms_deleteRoom (env : Env) (room : Room) (rounds : List Round) :
    Call.Within FewerRooms (deleteRoom env room rounds) := by
  refine Call.Within.bind FewerRooms.trans (fewerRooms_of_keeps ?_) fun _ =>
    Call.Within.bind FewerRooms.trans (Call.Within.forEach FewerRooms.refl FewerRooms.trans
      fun round _ w => SameRooms.fewer (sameRooms_deleteRound env round w)) fun _ => ?_
  · refine Call.Keeps.bind (Call.Keeps.read _) fun members => Call.Keeps.bind
      (Call.Keeps.io _ _ (Call.Keeps.write fun _ => rfl)) fun _ => Call.Keeps.forEach
        fun member _ => keeps_logged (Call.Keeps.io _ _ (Call.Keeps.write fun _ => rfl))
  · refine Call.Within.io FewerRooms.refl _ _ (Call.Within.bind FewerRooms.trans
      (Call.Within.read FewerRooms.refl _) fun inUse => Call.Within.ite _
        (Call.Within.fail FewerRooms.refl _) (Call.Within.write fun w => ?_))
    exact List.filter_sublist.map _

/-- Leaving a room makes none. -/
theorem fewerRooms_leaveRoom (env : Env) (roomID : RoomID) (userID : AuthID) (w : World) :
    FewerRooms w ((leaveRoom env roomID userID).run w).2 := by
  have hadmin : ∀ room, Call.Within FewerRooms (replaceAdmin env roomID room userID) := by
    refine fun room => Call.Within.ite _ (Call.Within.bind FewerRooms.trans
      (fewerRooms_of_keeps ?_) fun admin => Call.Within.bind FewerRooms.trans
        (Call.Within.io FewerRooms.refl _ _ (Call.Within.write fun w => ?_)) fun _ =>
          fewerRooms_of_keeps (Call.Keeps.bind (Call.Keeps.read _) fun _ =>
            keeps_logged (keeps_sendMessage (fun _ _ => rfl) _ _)))
      (Call.Within.pure FewerRooms.refl _)
    · refine Call.Keeps.bind (Call.Keeps.io _ _ (Call.Keeps.read _)) fun members => ?_
      cases members with
      | nil => exact Call.Keeps.fail _
      | cons user others => exact Call.Keeps.pure _
    · -- A room that gets another admin keeps its id.
      show ((w.db.rooms.map _).map Room.id).Sublist _
      rw [List.map_map]
      have hids : (w.db.rooms.map (Room.id ∘ fun r =>
          if r.id = room.id then { r with admin := admin } else r)) = w.db.rooms.map Room.id :=
        List.map_congr_left fun r _ => by rw [Function.comp_apply]; split <;> rfl
      rw [hids]
  rcases leaveRoom_cases env roomID userID w with ⟨e, hrun, -⟩ | ⟨room, hroom, -,
    ⟨-, e, hrun⟩ | ⟨-, rs, ⟨-, hrun⟩ | ⟨-, hrun⟩⟩⟩
  · rw [hrun]
    exact .refl w
  · rw [hrun]
    exact .refl w
  · rw [hrun]
    exact .refl w
  · rw [hrun]
    -- Of what settles a room, only its deletion touches the rows.
    rcases settleRoom_cases env room (w.db.roundsOf env.rounds room.id) roomID userID
      ((w.left env roomID userID).tell rs) with ⟨-, hsettle⟩ | ⟨-, ⟨-, hsettle⟩ | ⟨-, hsettle⟩⟩
    · rw [hsettle]
      exact .refl w
    · rw [hsettle]
      exact fewerRooms_deleteRoom env room _ (((w.left env roomID userID).tell rs).keptOpen roomID)
    · rw [hsettle]
      exact hadmin room ((w.left env roomID userID).tell rs)

/-- The expiry of a room makes none. -/
theorem fewerRooms_expireRoom (env : Env) (roomID : RoomID) :
    Call.Within FewerRooms (expireRoom env roomID) := by
  refine Call.Within.bind FewerRooms.trans
    (Call.Within.attempt (fewerRooms_of_keeps (keeps_findRoomByID env roomID))) fun r => ?_
  cases r with
  | error e => exact Call.Within.pure FewerRooms.refl _
  | ok found =>
    exact Call.Within.bind FewerRooms.trans (fewerRooms_deleteRoom env found.1 found.2) fun _ =>
      fewerRooms_of_keeps (keeps_logged (keeps_sendMessage (fun _ _ => rfl) _ _))

/-- Creating a round makes none. -/
theorem fewerRooms_createRound (env : Env) (maxNumRoundsPerRoom : ℤ)
    (params : RoundCreationParameters) (roomID : RoomID) :
    Call.Within FewerRooms (createRound env maxNumRoundsPerRoom params roomID) := by
  have hcreate : ∀ roomID, Call.Within FewerRooms (roundServiceCreateRound env params roomID) := by
    intro roomID w
    obtain ⟨w₁, hrooms, -, -, ⟨-, r, hrun⟩ | ⟨-, e, hrun⟩⟩ :=
      roundServiceCreateRound_keeps env params roomID w
    · rw [hrun]
      exact hrooms.fewer
    · rw [hrun]
      exact hrooms.fewer
  refine Call.Within.bind FewerRooms.trans (fewerRooms_of_keeps (keeps_findRoomByID env roomID))
    fun (room, rounds) => Call.Within.bind FewerRooms.trans (fewerRooms_of_keeps (Call.Keeps.io _ _
      (Call.Keeps.read _))) fun limit => Call.Within.ite _ (Call.Within.fail FewerRooms.refl _) ?_
  refine Call.Within.bind FewerRooms.trans (Call.Within.attempt (hcreate room.id)) fun result => ?_
  cases result with
  | ok made =>
    exact fewerRooms_of_keeps (Call.Keeps.bind (Call.Keeps.io _ _ (Call.Keeps.pure _)) fun _ =>
      Call.Keeps.pure _)
  | error e =>
    refine Call.Within.bind FewerRooms.trans (Call.Within.ite _ (Call.Within.bind FewerRooms.trans
      (Call.Within.write fun _ => FewerRooms.refl _) fun _ => ?_)
      (Call.Within.pure FewerRooms.refl _)) fun _ => Call.Within.fail FewerRooms.refl _
    exact within_logged FewerRooms.refl FewerRooms.trans (fewerRooms_deleteRoom env room rounds)

/-- No event of the rooms and queues makes a room. -/
theorem fewerRooms_happen (w : World) (e : HistoryEvent) : FewerRooms w (w.happen e) := by
  cases e with
  | forward => exact .refl w
  | process env =>
    refine SameRooms.fewer ?_
    show (w.happen (.process env)).db.rooms = w.db.rooms
    rw [show (w.happen (.process env)).db = _ from (grades_listen env w).db]
  | request env event =>
  show FewerRooms w (w.serve (env, event))
  cases event with
  | joinRoom roomID userID =>
    refine SameRooms.fewer ?_
    show ((joinRoom env roomID userID).run w).2.db.rooms = w.db.rooms
    rcases joinRoom_cases env roomID userID w with ⟨e, hrun, -⟩ |
      ⟨room, -, -, ⟨-, hrun⟩ | ⟨-, o, rs, hrun, -⟩⟩
    · rw [hrun]
    · rw [hrun]
      rfl
    · rw [hrun]
      -- A join may enrol the user in the running round, and leaves the rooms.
      show ((w.joined env roomID userID).entered env _ userID).db.rooms = w.db.rooms
      unfold World.entered
      cases runningRound (w.db.roundsOf env.rounds room.id) with
      | none => rfl
      | some round =>
        dsimp only
        split <;> rfl
  | leaveRoom roomID userID => exact fewerRooms_leaveRoom env roomID userID w
  | expireRoom roomID => exact fewerRooms_expireRoom env roomID w
  | createRound maxNumRoundsPerRoom params roomID =>
    exact fewerRooms_createRound env maxNumRoundsPerRoom params roomID w
  | setRoundDuration roomID userID duration =>
    show FewerRooms w ((setRoundDurationByRoomID env roomID userID duration).run w).2
    rcases setRoundDurationByRoomID_cases env roomID userID duration w with
      hsame | ⟨round, -, -, -, hrun⟩
    · rw [hsame]
      exact .refl w
    · rw [hrun]
      exact .refl w
  | startRound roomID userID =>
    exact SameRooms.fewer (congrArg Prod.fst (keeps_startRoundByRoomID env roomID userID w))
  | endRound roomID userID =>
    show FewerRooms w ((endRoundByRoomID env roomID userID).run w).2
    rcases endRoundByRoomID_cases env roomID userID w with ⟨o, hrun, -⟩ | ⟨round, -, -, hrun⟩
    · rw [hrun]
      exact .refl w
    · rw [hrun]
      exact .refl w
  | createSubmission roomID params userID =>
    exact SameRooms.fewer (congrArg Prod.fst (keeps_createRoomSubmission env roomID params userID w))
  | runEndTask task =>
    rcases serve_runEndTask_cases env task w with hserve | ⟨-, ⟨-, hserve⟩ | ⟨-, hserve⟩⟩
    · rw [hserve]
      exact .refl w
    · rw [hserve]
      exact .refl w
    · rw [hserve]
      exact .refl w
  | restart => exact .refl w

end Rooms

/-! ## Codes and rooms -/

section Codes

variable {s : Site}

/-- What is said of ids and codes is said of the list of the ids. -/
theorem codes_eq (s : Site) : (s.world.db.rooms.map fun room => s.shortCode room.id) =
    (s.world.db.rooms.map Room.id).map s.shortCode := by
  rw [List.map_map]
  rfl

/-- Codes remain well given when rooms go. -/
theorem Site.WellCoded.fewer (h : s.WellCoded) {w : World} (hfewer : FewerRooms s.world w) :
    Site.WellCoded { s with world := w } := by
  have hold : ∀ room ∈ w.db.rooms, ∃ room' ∈ s.world.db.rooms, room'.id = room.id :=
    fun room hroom => List.mem_map.mp (hfewer.subset (List.mem_map.mpr ⟨room, hroom, rfl⟩))
  refine ⟨h.ids.sublist hfewer, ?_, fun room hroom => ?_⟩
  · have hcodes := h.codes
    rw [codes_eq] at hcodes ⊢
    exact hcodes.sublist (hfewer.map _)
  · obtain ⟨room', hroom', hid⟩ := hold room hroom
    show (utf8 (s.shortCode room.id)).length = 6
    rw [← hid]
    exact h.sixBytes room' hroom'

/-- A room that is opened has an id and a code that no room has. -/
theorem Site.WellCoded.opens (h : s.WellCoded) {room : Room} {code : String} {s' : Site}
    (hopens : Opens room code s s') (hbytes : (utf8 code).length = 6) : s'.WellCoded := by
  -- Neither the id nor the code is taken, or the row would not have been stored.
  have hid : ∀ r ∈ s.world.db.rooms, r.id ≠ room.id := fun r hr heq =>
    List.find?_eq_none.mp hopens.newID r hr (decide_eq_true heq)
  have hcode : ∀ r ∈ s.world.db.rooms, s.shortCode r.id ≠ code := fun r hr heq =>
    List.find?_eq_none.mp hopens.newCode r hr (decide_eq_true heq)
  have hrooms : s'.world.db.rooms = s.world.db.rooms ++ [room] := by rw [hopens.db]
  have hnew : s'.shortCode room.id = code := by rw [hopens.shortCode, Function.update_self]
  have hsame : ∀ r ∈ s.world.db.rooms, s'.shortCode r.id = s.shortCode r.id := fun r hr => by
    rw [hopens.shortCode, Function.update_of_ne (hid r hr)]
  refine ⟨?_, ?_, fun r hr => ?_⟩
  · rw [hrooms, List.map_append, List.map_singleton]
    refine h.ids.append (List.nodup_singleton _) (List.disjoint_singleton.mpr fun hmem => ?_)
    obtain ⟨r, hr, heq⟩ := List.mem_map.mp hmem
    exact hid r hr heq
  · have hmap : (s.world.db.rooms.map fun r => s'.shortCode r.id) =
        s.world.db.rooms.map fun r => s.shortCode r.id := List.map_congr_left hsame
    rw [hrooms, List.map_append, List.map_singleton, hmap, hnew]
    refine h.codes.append (List.nodup_singleton _) (List.disjoint_singleton.mpr fun hmem => ?_)
    obtain ⟨r, hr, heq⟩ := List.mem_map.mp hmem
    exact hcode r hr heq
  · rw [hrooms] at hr
    rcases List.mem_append.mp hr with hr | hr
    · rw [hsame r hr]
      exact h.sixBytes r hr
    · rw [List.mem_singleton.mp hr, hnew]
      exact hbytes

/-- An event keeps codes well given. -/
theorem wellCoded_happen (h : s.WellCoded) {e : SiteEvent} (hdraws : DrawsCodes s e) :
    (s.happen e).WellCoded := by
  rcases happen_cases s e with hsame | ⟨env, dto, userAuthID, code, rfl, hcode, hopens⟩ |
    ⟨expiryTasks, event, -, hstate⟩
  · rwa [hsame]
  · obtain ⟨candidate, hcandidate, rfl⟩ := List.mem_map.mp hcode
    obtain ⟨draws, hdrawn⟩ := hdraws candidate hcandidate
    refine h.opens hopens ?_
    rw [hdrawn]
    exact length_utf8_generateShortCode draws
  · rw [hstate]
    exact h.fewer (fewerRooms_happen (s.world.withExpiry expiryTasks) event)

/-- The code of a room finds this room. -/
theorem Site.WellCoded.roomByShortCode (h : s.WellCoded) {room : Room}
    (hroom : room ∈ s.world.db.rooms) :
    s.roomByShortCode (s.shortCode room.id) = some room := by
  unfold Site.roomByShortCode
  cases hfound : s.world.db.rooms.find? fun r => decide (s.shortCode r.id = s.shortCode room.id) with
  | none => exact absurd (decide_eq_true rfl) (List.find?_eq_none.mp hfound room hroom)
  | some r =>
    have hcode : s.shortCode r.id = s.shortCode room.id := by
      simpa using List.find?_some hfound
    rw [List.inj_on_of_nodup_map h.codes (List.mem_of_find?_eq_some hfound) hroom hcode]

/-- Where codes are well given, each leads to its room. -/
theorem Site.WellCoded.codesLead (h : s.WellCoded) : CodesLead s := by
  intro room hroom env userAuthID hfind
  have hcode : s.resolve env (s.shortCode room.id) = room.id := by
    unfold Site.resolve
    rw [if_pos ⟨h.sixBytes room hroom, hfind⟩, h.roomByShortCode hroom]
    rfl
  have hid : s.resolve env room.id = room.id := by
    refine if_neg fun hshort => ?_
    have hnone := parse_of_short env.uuid hshort.1
    rw [env.uuid.accepts room.isUUID_id] at hnone
    cases hnone
  unfold joinRoomEndpoint
  rw [Call.bind_ok (resolveRoomParam_run (s.shortCode room.id)), hcode,
    Call.bind_ok (resolveRoomParam_run room.id), hid]

end Codes

/-- Along every run of central-service since there were no rooms, for each room a join by its short
code is the same as a join by its id. -/
theorem codesLead_along (s : Site) (es : List SiteEvent) (h : s.world.db.rooms = [])
    (hdraws : Along Site.happen DrawsCodes s es) : Throughout Site.happen CodesLead s es := by
  have hcoded : s.WellCoded := by
    refine ⟨?_, ?_, ?_⟩ <;> simp [h]
  refine (invariant_along (I := Site.WellCoded) (fun s e hs hok => wellCoded_happen hs hok) hcoded
    hdraws).mono fun s hs => hs.codesLead

/-- A site without rooms, on which a user opens one. -/
def openOne : List SiteEvent :=
  [.request SiteEnv.faultless (.createNewRoom (some ⟨utf8 "Monday", 0, false⟩) host)]

/-- A room is opened on an empty database. -/
theorem codesLead_openOne :
    Throughout Site.happen CodesLead ⟨.empty, fun _ => ""⟩ openOne := by
  refine codesLead_along ⟨.empty, fun _ => ""⟩ openOne rfl ⟨?_, trivial⟩
  intro candidate hcandidate
  obtain rfl := List.mem_singleton.mp hcandidate
  exact ⟨fun i => ⟨[0, 25, 9, 31, 13, 14].get i, by revert i; decide⟩, by decide⟩

end Bsg.Central
