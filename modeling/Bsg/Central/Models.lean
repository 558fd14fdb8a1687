import Bsg.Foundations.Table
import Bsg.Foundations.GoText
import Bsg.Central.RoomIDs

/-!
# Models of central-service

The rows of the tables that central-service keeps in its SQL database (`models/`), with the
constants that their columns take (`constants/`). The text columns of users and participants are
byte strings, since the code slices auth ids; the other text columns are strings. Keys are natural
numbers, the other unsigned columns 64-bit words, and times are Unix seconds. A round's problem set
is kept in a join table of pairs of keys.
-/

namespace Bsg.Central

open Bsg.Foundations

/-- An auth id: an opaque text that the identity provider hands out. -/
abbrev AuthID := GoText

/-- A row of `users`. -/
structure User where
  id : ℕ
  firstName : GoText
  lastName : GoText
  handle : GoText
  email : GoText
  authID : AuthID
  photoURL : GoText
  deriving DecidableEq, Repr

instance : Row User := ⟨User.id⟩

/-- `constants.DIFFICULTY_EASY` -/
def difficultyEasy : String := "easy"

/-- `constants.DIFFICULTY_MEDIUM` -/
def difficultyMedium : String := "medium"

/-- `constants.DIFFICULTY_HARD` -/
def difficultyHard : String := "hard"

/-- A row of `problems`. -/
structure Problem where
  id : ℕ
  slug : String
  tags : List String
  difficulty : String
  isPaid : Bool
  isBlind75 : Bool
  isNeetCode150 : Bool
  deriving DecidableEq, Repr

instance : Row Problem := ⟨Problem.id⟩

/-- A row of `problem_company_tags`. -/
structure ProblemCompanyTag where
  problemID : ℕ
  company : String
  windows : List String
  deriving DecidableEq, Repr

/-- A row of `rooms`. Its id is a `uuid.UUID`. -/
structure Room where
  id : RoomID
  admin : AuthID
  profanityFilter : Bool
  isUUID_id : isUUID id = true
  deriving DecidableEq, Repr

/-- The status column of a round: `ROUND_CREATED`, `ROUND_STARTED` or `ROUND_END`. -/
inductive RoundStatus where
  | created
  | started
  | ended
  deriving DecidableEq, Repr

/-- `constants.ROUND_DURATION_BUFFER`, in seconds. -/
def roundDurationBuffer : ℤ := 1

/-- A row of `rounds`. -/
structure Round where
  id : ℕ
  lastUpdatedTime : ℤ
  /-- Duration in minutes. -/
  duration : ℤ
  roomID : RoomID
  status : RoundStatus
  deriving DecidableEq, Repr

instance : Row Round := ⟨Round.id⟩

/-- A row of `round_participants`. -/
structure RoundParticipant where
  id : ℕ
  participantAuthID : AuthID
  roundID : ℕ
  solvedProblemCount : UInt64
  score : UInt64
  deriving DecidableEq, Repr

instance : Row RoundParticipant := ⟨RoundParticipant.id⟩

/-- `constants.SUBMISSION_STATUS_ACCEPTED` -/
def submissionStatusAccepted : String := "Accepted"

/-- A row of `submissions`. The owner is a row of the table that the owner type names. -/
structure Submission where
  id : ℕ
  code : String
  language : String
  problemID : ℕ
  verdict : String
  executionTime : UInt64
  submissionOwnerID : ℕ
  submissionOwnerType : String
  submissionTimestamp : ℤ
  deriving DecidableEq, Repr

instance : Row Submission := ⟨Submission.id⟩

/-- The owner type of a submission that belongs to a row of `round_submissions`. -/
def ownerRoundSubmissions : String := "round_submissions"

/-- The owner type of a submission that belongs to a user directly. -/
def ownerUser : String := "user"

/-- A row of `round_submissions`. -/
structure RoundSubmission where
  id : ℕ
  roundID : ℕ
  roundParticipantID : ℕ
  /-- The points of the submission, fixed when it was made. -/
  score : UInt64
  deriving DecidableEq, Repr

instance : Row RoundSubmission := ⟨RoundSubmission.id⟩

/-- A row of `leaderboards`. -/
structure Leaderboard where
  id : ℕ
  userID : ℕ
  easySolved : UInt64
  mediumSolved : UInt64
  hardSolved : UInt64
  totalScore : UInt64
  deriving DecidableEq, Repr

instance : Row Leaderboard := ⟨Leaderboard.id⟩

end Bsg.Central
