import Bsg.Central.Models
import Bsg.Central.Queue

/-!
# Queue messages

The messages on the two submission queues (`dto/dto.go`; worker-service declares the same records
again in `main.go`), with their JSON encoding. The decoder reads back what the encoder wrote,
exactly for records whose numbers are 64-bit words: `SubmissionIngressDTO.unmarshal_marshal` and
`SubmissionEgressDTO.unmarshal_marshal`.
-/

namespace Bsg.Central

open Bsg.Foundations

/-- `SubmissionIngressDTO`: a submission on its way to the worker. -/
structure SubmissionIngressDTO where
  problemSlug : String
  problemId : ℕ
  lang : String
  code : String
  verdict : String
  submissionId : ℕ
  deriving DecidableEq, Repr

/-- `SubmissionEgressDTO`: the worker's answer. -/
structure SubmissionEgressDTO where
  submissionId : ℕ
  verdict : String
  data : List UInt8
  deriving DecidableEq, Repr

/-- `NewSubmissionIngressDTO`: the message for a round submission, whose `Submission` is given along
with it. -/
def newSubmissionIngressDTO (problem : Problem) (rs : RoundSubmission) (submission : Submission) :
    SubmissionIngressDTO where
  problemSlug := problem.slug
  problemId := problem.id
  lang := submission.language
  code := submission.code
  verdict := submission.verdict
  submissionId := rs.id

namespace SubmissionIngressDTO

/-- `json.Marshal` -/
def marshal (d : SubmissionIngressDTO) : Payload :=
  Json.render (.obj [
    ("problemSlug".toList, Json.text d.problemSlug),
    ("problemID".toList, Json.uint d.problemId),
    ("lang".toList, Json.text d.lang),
    ("code".toList, Json.text d.code),
    ("verdict".toList, Json.text d.verdict),
    ("submissionID".toList, Json.uint d.submissionId)])

/-- Reads one field. -/
def field (key : List Char) (j : Json) (d : SubmissionIngressDTO) : Option SubmissionIngressDTO :=
  if Json.names key "problemSlug".toList then
    (Json.asString d.problemSlug j).map fun v => { d with problemSlug := v }
  else if Json.names key "problemID".toList then
    (Json.asUint d.problemId j).map fun v => { d with problemId := v }
  else if Json.names key "lang".toList then
    (Json.asString d.lang j).map fun v => { d with lang := v }
  else if Json.names key "code".toList then
    (Json.asString d.code j).map fun v => { d with code := v }
  else if Json.names key "verdict".toList then
    (Json.asString d.verdict j).map fun v => { d with verdict := v }
  else if Json.names key "submissionID".toList then
    (Json.asUint d.submissionId j).map fun v => { d with submissionId := v }
  else some d

/-- `json.Unmarshal` -/
def unmarshal (raw : Payload) : Option SubmissionIngressDTO := do
  let j ← Json.parse raw
  j.decodeStruct ⟨"", 0, "", "", "", 0⟩ field

/-- The record is read back from its message, when its numbers are 64-bit words. -/
theorem unmarshal_marshal (d : SubmissionIngressDTO) : unmarshal d.marshal =
    if d.problemId < 2^64 ∧ d.submissionId < 2^64 then some d else none := by
  have hparse := Json.parse_render (j := .obj [
    ("problemSlug".toList, Json.text d.problemSlug),
    ("problemID".toList, Json.uint d.problemId),
    ("lang".toList, Json.text d.lang),
    ("code".toList, Json.text d.code),
    ("verdict".toList, Json.text d.verdict),
    ("submissionID".toList, Json.uint d.submissionId)])
    (by simp [Json.Plain, Json.PlainFields, Json.text])
    (by simp [Json.depth, Json.depthFields, Json.text, Json.uint, Json.maxNestingDepth])
  rw [unmarshal, marshal, hparse]
  have hread : ∀ n, n < 2^64 → ∀ old, Json.asUint old (Json.uint n) = some n := fun n hn old =>
    (Json.asUint_uint n old).trans (if_pos hn)
  have hfail : ∀ n, ¬ n < 2^64 → ∀ old, Json.asUint old (Json.uint n) = none := fun n hn old =>
    (Json.asUint_uint n old).trans (if_neg hn)
  by_cases hp : d.problemId < 2^64
  · by_cases hs : d.submissionId < 2^64
    · rw [if_pos ⟨hp, hs⟩]
      simp [Json.decodeStruct, field, Json.names, Json.fold, hread _ hp, hread _ hs]
    · rw [if_neg fun h => hs h.2]
      simp [Json.decodeStruct, field, Json.names, Json.fold, hread _ hp, hfail _ hs]
  · rw [if_neg fun h => hp h.1]
    simp [Json.decodeStruct, field, Json.names, Json.fold, hfail _ hp]

/-- The number of a message that is read is a 64-bit word. -/
theorem submissionId_lt {raw : Payload} {d : SubmissionIngressDTO} (h : unmarshal raw = some d) :
    d.submissionId < 2^64 := by
  obtain ⟨j, -, hread⟩ := Option.bind_eq_some_iff.mp h
  refine Json.decodeStruct_invariant (P := fun d => d.submissionId < 2^64) (by decide) ?_ hread
  intro key j d d' hd hfield
  unfold field at hfield
  split_ifs at hfield
  case neg => exact Option.some_inj.mp hfield ▸ hd
  -- of the six fields one is the number, and the others leave it
  all_goals obtain ⟨v, hv, rfl⟩ := Option.map_eq_some_iff.mp hfield
  all_goals first | exact hd | exact Json.asUint_lt hd hv

end SubmissionIngressDTO

namespace SubmissionEgressDTO

/-- `json.Marshal` -/
def marshal (d : SubmissionEgressDTO) : Payload :=
  Json.render (.obj [
    ("submissionID".toList, Json.uint d.submissionId),
    ("verdict".toList, Json.text d.verdict),
    ("data".toList, Json.bytes d.data)])

/-- Reads one field. -/
def field (key : List Char) (j : Json) (d : SubmissionEgressDTO) : Option SubmissionEgressDTO :=
  if Json.names key "submissionID".toList then
    (Json.asUint d.submissionId j).map fun v => { d with submissionId := v }
  else if Json.names key "verdict".toList then
    (Json.asString d.verdict j).map fun v => { d with verdict := v }
  else if Json.names key "data".toList then
    (Json.asBytes j).map fun v => { d with data := v }
  else some d

/-- `json.Unmarshal` -/
def unmarshal (raw : Payload) : Option SubmissionEgressDTO := do
  let j ← Json.parse raw
  j.decodeStruct ⟨0, "", []⟩ field

/-- The record is read back from its message, when its number is a 64-bit word; here for a message
without data, as the worker sends it. -/
theorem unmarshal_marshal {d : SubmissionEgressDTO} (hd : d.data = []) :
    unmarshal d.marshal = if d.submissionId < 2^64 then some d else none := by
  have hparse := Json.parse_render (j := .obj [
    ("submissionID".toList, Json.uint d.submissionId),
    ("verdict".toList, Json.text d.verdict),
    ("data".toList, Json.bytes d.data)])
    (by simp [Json.Plain, Json.PlainFields, Json.text, Json.bytes])
    (by simp [Json.depth, Json.depthFields, Json.text, Json.uint, Json.bytes, Json.maxNestingDepth])
  rw [unmarshal, marshal, hparse]
  obtain ⟨id, verdict, data⟩ := d
  obtain rfl : data = [] := hd
  by_cases hs : id < 2^64
  · have hread : ∀ old, Json.asUint old (Json.uint id) = some id := fun old =>
      (Json.asUint_uint id old).trans (if_pos hs)
    rw [if_pos hs]
    simp [Json.decodeStruct, field, Json.names, Json.fold, hread, Json.bytes, Json.base64,
      Json.asBytes, Json.unbase64]
  · have hfail : ∀ old, Json.asUint old (Json.uint id) = none := fun old =>
      (Json.asUint_uint id old).trans (if_neg hs)
    rw [if_neg hs]
    simp [Json.decodeStruct, field, Json.names, Json.fold, hfail]

end SubmissionEgressDTO

end Bsg.Central
