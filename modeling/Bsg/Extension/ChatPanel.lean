import Bsg.Foundations.Grouping
import Bsg.Rtc.Hearing
import Bsg.Rtc.Replies

/-!
# The chat of the panel

What the panel makes of the messages of rtc-service that are about the chat
(`hooks/useChatSocket.ts`): the lines that it shows, which are put into groups by their author, and
the number of messages that were not read yet. While the history of a room is read again, messages
should not count; the panel takes the first join that it reads for its own, which ends that
(`rejoin_shows`).
-/

namespace Bsg.Extension

open Bsg.Foundations Bsg.Rtc

/-! ## Lines -/

/-- `Message`: a line of the chat. A system line has no name and no picture. -/
structure ChatLine where
  userHandle : GoText
  userName : GoText
  userPhoto : GoText
  data : GoText
  roomID : String
  isSystem : Bool
  deriving DecidableEq, Repr

/-- A line of the system. -/
def systemLine (data : GoText) (roomID : String) : ChatLine :=
  ⟨utf8 "System", [], [], data, roomID, true⟩

/-- The line that a message makes, if it makes one: the branches of `ws.onmessage`. -/
def chatLine (r : Response) : Option ChatLine :=
  let message := r.respMessage
  if r.respStatus = .ok then
    match r.respType with
    | .chatMessage => some ⟨message.userHandle, message.userName, message.userPhoto, message.data.raw,
        message.roomID, false⟩
    | .userJoined | .userLeft =>
      if message.data.raw = [] then none else some (systemLine message.data.raw message.roomID)
    | .systemAnnouncement => some (systemLine message.data.raw message.roomID)
    | .adminChange =>
      match message.data with
      | .adminChange b => some (systemLine
          (if b.message = [] then utf8 "The room admin has changed." else b.message) message.roomID)
      | _ => none
    | .roundJoin =>
      match message.data with
      | .joinRound b => some (systemLine
          ((if b.userName = [] then b.userID else b.userName) ++ utf8 " joined the round") message.roomID)
      | _ => none
    | _ => none
  else none

/-- `groupedMessages`: a message goes under the one before that has the same author, and a system
line stands for itself. -/
def groupedMessages (messages : List ChatLine) : List (List ChatLine) :=
  grouped (fun first msg => !msg.isSystem && first.userHandle = msg.userHandle) messages

/-! ## State -/

/-- The chat of a panel. -/
structure Chat where
  messages : List ChatLine
  /-- `suppressChatSoundsRef` -/
  suppressed : Bool
  unreadCount : ℕ
  /-- `joinedRoomIDRef` -/
  joinedRoomID : Option String
  deriving DecidableEq, Repr

/-- The message is a join, which the panel takes for its own. -/
def joinMark (r : Response) : Bool := r.respStatus = .ok && r.respType = .userJoined

/-- The message is one of the chat, from another user. -/
def fromOther (userId : GoText) (r : Response) : Bool :=
  r.respStatus = .ok && r.respType = .chatMessage && r.respMessage.userHandle ≠ userId

namespace Chat

/-- `ws.onmessage`, as far as it is about the chat; `visible` is `isChatVisible`. -/
def onMessage (userId : GoText) (visible : Bool) (c : Chat) (r : Response) : Chat :=
  { c with
    messages := c.messages ++ (chatLine r).toList
    suppressed := c.suppressed && !joinMark r
    unreadCount :=
      if !c.suppressed && fromOther userId r && !visible then c.unreadCount + 1 else c.unreadCount }

/-- The chat after a list of messages that are read while it is hidden, or while it is not. -/
def onMessages (userId : GoText) (visible : Bool) (c : Chat) (rs : List Response) : Chat :=
  rs.foldl (onMessage userId visible) c

/-- `joinChatRoom`, with a socket that is open or not. -/
def joinChatRoom (c : Chat) (roomID : String) (isOpen : Bool) : Chat :=
  let c := { c with suppressed := true, unreadCount := 0 }
  if c.joinedRoomID = some roomID then c
  else { c with messages := [], joinedRoomID := if isOpen then some roomID else c.joinedRoomID }

/-- The panel reads one message, and then the others. -/
theorem onMessages_cons (userId : GoText) (visible : Bool) (c : Chat) (r : Response)
    (rs : List Response) : c.onMessages userId visible (r :: rs) =
      (c.onMessage userId visible r).onMessages userId visible rs := rfl

/-- Every message makes its line, at the end. -/
theorem messages_onMessages (userId : GoText) (visible : Bool) (c : Chat) (rs : List Response) :
    (c.onMessages userId visible rs).messages = c.messages ++ rs.filterMap chatLine := by
  induction rs generalizing c with
  | nil => exact (List.append_nil _).symm
  | cons r rs ih =>
    have hline : (chatLine r).toList ++ rs.filterMap chatLine = (r :: rs).filterMap chatLine := by
      rw [List.filterMap_cons]
      cases chatLine r <;> rfl
    rw [onMessages_cons, ih, ← hline, ← List.append_assoc]
    rfl

/-- While nothing is suppressed, every message of another user counts. -/
theorem unreadCount_of_open (userId : GoText) {c : Chat} (hopen : c.suppressed = false)
    (rs : List Response) :
    (c.onMessages userId false rs).unreadCount = c.unreadCount + rs.countP (fromOther userId) := by
  induction rs generalizing c with
  | nil => rfl
  | cons r rs ih =>
    have hopen' : (c.onMessage userId false r).suppressed = false := by
      unfold onMessage
      rw [hopen, Bool.false_and]
    have hcount : (c.onMessage userId false r).unreadCount =
        c.unreadCount + if fromOther userId r then 1 else 0 := by
      unfold onMessage
      rw [hopen]
      cases fromOther userId r <;> rfl
    rw [onMessages_cons, ih hopen', hcount, List.countP_cons]
    omega

/-- While messages are suppressed, those of other users count from the first join on. -/
theorem unreadCount_of_suppressed (userId : GoText) {c : Chat} (hsuppressed : c.suppressed = true)
    (rs : List Response) : (c.onMessages userId false rs).unreadCount =
      c.unreadCount + (rs.dropWhile fun r => !joinMark r).countP (fromOther userId) := by
  induction rs generalizing c with
  | nil => rfl
  | cons r rs ih =>
    have hcount : (c.onMessage userId false r).unreadCount = c.unreadCount := by
      unfold onMessage
      rw [hsuppressed]
      rfl
    by_cases hjoin : joinMark r = true
    · have hopen : (c.onMessage userId false r).suppressed = false := by
        unfold onMessage
        rw [hjoin, Bool.not_true, Bool.and_false]
      -- The join itself is no message of the chat.
      have hother : fromOther userId r = false := by
        unfold joinMark at hjoin
        unfold fromOther
        rw [Bool.and_eq_true, decide_eq_true_eq, decide_eq_true_eq] at hjoin
        rw [hjoin.2]
        simp
      rw [onMessages_cons, unreadCount_of_open userId hopen, hcount,
        List.dropWhile_cons_of_neg (by simp [hjoin]), List.countP_cons, hother]
      rfl
    · have hsuppressed' : (c.onMessage userId false r).suppressed = true := by
        unfold onMessage
        rw [hsuppressed, Bool.eq_false_iff.mpr hjoin]
        rfl
      rw [onMessages_cons, ih hsuppressed', hcount, List.dropWhile_cons_of_pos (by simp [hjoin])]

end Chat

/-! ## Groups -/

/-- The groups of the chat are the only way to cut its lines, in their order, so that each group has
one author and no system line but its first, and could not take the first line of the next group. -/
theorem groupedMessages_iff {messages : List ChatLine} {gs : List (List ChatLine)} :
    groupedMessages messages = gs ↔ gs.flatten = messages ∧
      (∀ g ∈ gs, ∃ first rest, g = first :: rest ∧
        ∀ msg ∈ rest, msg.isSystem = false ∧ msg.userHandle = first.userHandle) ∧
      gs.IsChain fun g g' => ∀ first ∈ g.head?, ∀ first' ∈ g'.head?,
        first'.isSystem = true ∨ first'.userHandle ≠ first.userHandle := by
  have htakes : ∀ first msg : ChatLine, (!msg.isSystem && first.userHandle = msg.userHandle) = true ↔
      msg.isSystem = false ∧ msg.userHandle = first.userHandle := by
    intro first msg
    rw [Bool.and_eq_true, Bool.not_eq_true', decide_eq_true_eq, eq_comm (a := msg.userHandle)]
  have hrefuses : ∀ first msg : ChatLine,
      (!msg.isSystem && first.userHandle = msg.userHandle) = false ↔
        msg.isSystem = true ∨ msg.userHandle ≠ first.userHandle := by
    intro first msg
    rw [← Bool.not_eq_true, htakes, not_and_or, Bool.not_eq_false]
  -- What the reducer keeps together, and where it breaks, said of the lines.
  have hgroup : ∀ g : List ChatLine,
      IsGroup (fun first msg : ChatLine => !msg.isSystem && first.userHandle = msg.userHandle) g ↔
        ∃ first rest, g = first :: rest ∧
          ∀ msg ∈ rest, msg.isSystem = false ∧ msg.userHandle = first.userHandle := by
    intro g
    constructor
    · intro h
      obtain ⟨first, rest, rfl, hrest⟩ := h.exists_cons
      exact ⟨first, rest, rfl, fun msg hmsg => (htakes first msg).mp (hrest msg hmsg)⟩
    · rintro ⟨first, rest, rfl, hrest⟩
      exact fun msg hmsg => (htakes first msg).mpr (hrest msg hmsg)
  unfold groupedMessages
  rw [grouped_iff, and_comm]
  refine and_congr_right fun _ => ?_
  have hbreaks : ∀ g g' : List ChatLine,
      Breaks (fun first msg : ChatLine => !msg.isSystem && first.userHandle = msg.userHandle) g g' ↔
        ∀ first ∈ g.head?, ∀ first' ∈ g'.head?,
          first'.isSystem = true ∨ first'.userHandle ≠ first.userHandle := fun g g' =>
    forall₂_congr fun first _ => forall₂_congr fun first' _ => hrefuses first first'
  constructor
  · rintro ⟨heach, hchain⟩
    exact ⟨fun g hg => (hgroup g).mp (heach g hg), hchain.imp fun g g' h => (hbreaks g g').mp h⟩
  · rintro ⟨heach, hchain⟩
    exact ⟨fun g hg => (hgroup g).mpr (heach g hg), hchain.imp fun g g' h => (hbreaks g g').mpr h⟩

/-! ## A room that is joined again -/

/-- What is counted behind a mark is not changed by more that is not counted. -/
theorem countP_dropWhile_append {α : Type} {p q : α → Bool} (l : List α) {rest : List α}
    (h : ∀ x ∈ rest, q x = false) :
    ((l ++ rest).dropWhile p).countP q = (l.dropWhile p).countP q := by
  have hnone : ∀ l' : List α, l'.Sublist rest → l'.countP q = 0 := fun l' hl' =>
    List.countP_eq_zero.mpr fun x hx => by simp [h x (hl'.subset hx)]
  rw [List.dropWhile_append]
  split
  · rename_i hempty
    rw [List.isEmpty_iff.mp hempty, hnone _ (List.dropWhile_sublist p), List.countP_nil]
  · rw [List.countP_append, hnone rest (List.Sublist.refl rest), Nat.add_zero]

/-- The line that a message of the history makes when it is sent again. -/
def shownAgain (r : Response) : Option ChatLine := if r.respType.replayed then chatLine r else none

/-- The user is a member of the room already, or asks for no announcement. -/
def Silent (s : Server) (roomID : String) (userHandle : GoText) (suppress : Bool) : Prop :=
  ((s.rooms roomID).getD .empty).users.contains userHandle = true ∨ suppress = true

instance (s : Server) (roomID : String) (userHandle : GoText) (suppress : Bool) :
    Decidable (Silent s roomID userHandle suppress) := inferInstanceAs (Decidable (_ ∨ _))

/-- Who joins a room silently is sent what it keeps, and then an answer without text, if it comes to
him. -/
theorem sentTo_silent {s : Server} (m : Moment) (conn : ℕ) (name : GoText) {roomID : String}
    (hid : roomID ≠ "") {userHandle : GoText} (hhandle : userHandle ≠ []) (userName : GoText)
    {suppress : Bool} (hsilent : Silent s roomID userHandle suppress) (filter : Option Bool) :
    ∃ rest, sentTo conn (s.receive m conn
        (.request name (.of (.joinRoom userHandle roomID userName suppress filter)))).2 =
          ((s.rooms roomID).getD .empty).replay ++ rest ∧
      ∀ resp ∈ rest, resp = newOkResponse .userJoined (.text []) roomID := by
  -- A silent join stores nothing, so the history that is replayed is the old one.
  obtain ⟨joined, text, hhandled, hmessages, htext⟩ :=
    Server.handleJoinRoom_of_complete name s.rooms hid hhandle userName suppress filter
  obtain rfl := htext (Bool.or_eq_true_iff.mpr hsilent)
  obtain ⟨s', hrooms, hreceive⟩ := Server.receive_of_handled (s := s)
    (r := .of (.joinRoom userHandle roomID userName suppress filter)) (m := m) hhandled conn
  obtain ⟨rest, hrespond, hrest⟩ := s'.respond_deliveries m conn "join-room"
    ⟨.userJoined, roomID, .ok (.text [])⟩
  rw [hreceive]
  refine ⟨sentTo conn rest, ?_, fun resp hresp => ?_⟩
  · have hreplay : joined.replay = ((s.rooms roomID).getD .empty).replay := by
      unfold HistoryRoom.replay
      rw [hmessages]
    have hroom : s'.rooms roomID = some joined := by rw [hrooms, Function.update_self]
    show sentTo conn (s'.respond m conn "join-room" _).2 = _
    rw [hrespond, ← hreplay]
    simp [sentTo, Server.replayTo, Except.isOk, Except.toBool, hroom, List.filter_map,
      Function.comp_def]
  · obtain ⟨d, hd, rfl⟩ := List.mem_map.mp hresp
    exact (hrest d (List.mem_filter.mp hd).1).1

/-- Such an answer makes no line, and is no message of another user. -/
theorem silent_answer {roomID : String} {rest : List Response}
    (h : ∀ resp ∈ rest, resp = newOkResponse .userJoined (.text []) roomID) (userId : GoText) :
    rest.filterMap chatLine = [] ∧ ∀ resp ∈ rest, fromOther userId resp = false := by
  refine ⟨List.filterMap_eq_nil_iff.mpr fun resp hresp => ?_, fun resp hresp => ?_⟩
  · rw [h resp hresp]
    rfl
  · rw [h resp hresp]
    rfl

/-- A panel of a member that joins his room anew shows the lines of the last hundred messages stored
in it, without the changes of the admin: the answer to the join has no line. Of the messages of
other users it counts those behind the first join among the hundred as unread, however old they are.
-/
theorem rejoin_shows (es : List ServerEvent) (m : Moment) (conn : ℕ) (name : GoText) {roomID : String}
    (hid : roomID ≠ "") {userHandle : GoText} (hhandle : userHandle ≠ []) (userName : GoText)
    {suppress : Bool} (hsilent : Silent (run Server.step .start es) roomID userHandle suppress)
    (filter : Option Bool) (userId : GoText) {c : Chat} (hnew : c.joinedRoomID ≠ some roomID) :
    let kept := ((run Archive.step .start es).log roomID).rtake maxHistorySize
    let shown := (c.joinChatRoom roomID true).onMessages userId false
      (sentTo conn ((run Server.step .start es).receive m conn
        (.request name (.of (.joinRoom userHandle roomID userName suppress filter)))).2)
    shown.messages = kept.filterMap shownAgain ∧
      shown.unreadCount = (kept.dropWhile fun r => !joinMark r).countP (fromOther userId) := by
  intro kept shown
  have hchat : c.joinChatRoom roomID true = ⟨[], true, 0, some roomID⟩ := by
    unfold Chat.joinChatRoom
    dsimp only
    rw [if_neg hnew]
    rfl
  have hremembers := (archived_run es).remembers roomID
  rw [server_archive] at hremembers
  obtain ⟨rest, hsent, hrest⟩ := sentTo_silent m conn name hid hhandle userName hsilent filter
  obtain ⟨hlines, hothers⟩ := silent_answer hrest userId
  have hshown : shown = (⟨[], true, 0, some roomID⟩ : Chat).onMessages userId false
      (kept.filter (fun prevMsg => prevMsg.respType.replayed) ++ rest) := by
    dsimp only [shown]
    rw [hchat, hsent, HistoryRoom.replay, hremembers]
  -- A join is of a type that is sent again, and so is a message of the chat.
  have hjoin : ∀ r : Response, (!r.respType.replayed || !joinMark r) = !joinMark r := by
    rintro ⟨status, message, _⟩
    cases status <;> rename_i t <;> cases t <;> rfl
  have hother : ∀ r : Response, (fromOther userId r && r.respType.replayed) = fromOther userId r := by
    rintro ⟨status, message, _⟩
    cases status <;> rename_i t <;> cases t <;> simp [fromOther, ResponseType.replayed]
  rw [hshown]
  constructor
  · rw [Chat.messages_onMessages, List.nil_append, List.filterMap_append, hlines, List.append_nil,
      List.filterMap_filter]
    rfl
  · rw [Chat.unreadCount_of_suppressed userId rfl, Nat.zero_add, countP_dropWhile_append _ hothers,
      List.dropWhile_filter, List.countP_filter]
    simp only [hjoin, hother]

/-- Bob and Alice have joined a room, and Bob has said hello. -/
def saidHello : List ServerEvent := bothJoined ++ [.receive (.plain 0) 1 (.request (utf8 "bob") hello)]

/-- The chat of Alice when she joins the room again. -/
def aliceAgain : Chat :=
  ((⟨[], false, 0, none⟩ : Chat).joinChatRoom "room" true).onMessages (utf8 "alice") false
    (sentTo 3 ((run Server.step .start saidHello).receive (.plain 1000) 3
      (.request (utf8 "alice") (.of (.joinRoom (utf8 "alice") "room" (utf8 "Alice") false none)))).2)

/-- It has the lines of the room, and counts what stands behind the first join. -/
theorem rejoin_shows_hello :
    aliceAgain.messages =
        (((run Archive.step .start saidHello).log "room").rtake maxHistorySize).filterMap shownAgain ∧
      aliceAgain.unreadCount =
        ((((run Archive.step .start saidHello).log "room").rtake maxHistorySize).dropWhile
          fun r => !joinMark r).countP (fromOther (utf8 "alice")) := by
  have hsilent : Silent (run Server.step .start saidHello) "room" (utf8 "alice") false := by
    decide +kernel
  have hnew : (⟨[], false, 0, none⟩ : Chat).joinedRoomID ≠ some "room" := by decide
  exact rejoin_shows saidHello (.plain 1000) 3 (utf8 "alice") (by decide) (by decide) (utf8 "Alice")
    hsilent none (utf8 "alice") hnew

/-- The hello counts as unread, though she was in the room when it was said. -/
example : aliceAgain.unreadCount = 1 := by decide +kernel

end Bsg.Extension
