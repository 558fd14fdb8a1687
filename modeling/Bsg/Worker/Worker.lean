import Bsg.Central.Dto

/-!
# The worker

worker-service (`main.go`, `logger.go`) takes submissions from the ingress queue and answers on the
egress queue. It checks that a message is complete (`validateIngressMessage`) and hands its verdict
on unchanged; a message that cannot be read or is not complete is dropped (`answer_marshal`).
-/

namespace Bsg.Worker

open Bsg.Foundations Bsg.Central

/-- The size of the code in bytes. -/
def codeSize (code : String) : ℕ := (utf8 code).length

/-- `ValidateIngressMessage`: the error of a message, when it has one. -/
def validateIngressMessage (msg : SubmissionIngressDTO) : Option String :=
  if msg.problemSlug = "" then some "problemSlug is required"
  else if msg.problemId = 0 then some "problemID is required"
  else if msg.lang = "" then some "lang is required"
  else if msg.code = "" then some "code is required"
  else if codeSize msg.code > 1 <<< 20 then some "code exceeds maximum size of 1MB"
  else if msg.submissionId = 0 then some "submissionID is required"
  else none

/-- A message is complete when all its fields are given and the code is not too long. -/
theorem validateIngressMessage_eq_none (msg : SubmissionIngressDTO) :
    validateIngressMessage msg = none ↔ msg.problemSlug ≠ "" ∧ msg.problemId ≠ 0 ∧ msg.lang ≠ "" ∧
      msg.code ≠ "" ∧ codeSize msg.code ≤ 1 <<< 20 ∧ msg.submissionId ≠ 0 := by
  unfold validateIngressMessage
  split_ifs <;> simp_all

/-- The answer to a message: the verdict it came with, and no data. -/
def egressMessage (msg : SubmissionIngressDTO) : SubmissionEgressDTO :=
  ⟨msg.submissionId, msg.verdict, []⟩

/-- What the worker answers to a message; nothing when it drops it. -/
def answer (rawMsg : Payload) : Option Payload :=
  match SubmissionIngressDTO.unmarshal rawMsg with
  | none => none
  | some msg =>
    match validateIngressMessage msg with
    | some _ => none
    | none => some (egressMessage msg).marshal

/-- The worker takes the message: its numbers are 64-bit words, and it is complete. -/
def Accepts (msg : SubmissionIngressDTO) : Prop :=
  (msg.problemId < 2^64 ∧ msg.submissionId < 2^64) ∧ validateIngressMessage msg = none

instance (msg : SubmissionIngressDTO) : Decidable (Accepts msg) :=
  inferInstanceAs (Decidable ((_ ∧ _) ∧ _))

/-- The worker answers the messages that it takes, and its answer is about the same submission, with
the same verdict. -/
theorem answer_marshal (msg : SubmissionIngressDTO) (raw : Payload) :
    answer msg.marshal = some raw ↔ Accepts msg ∧ raw = (egressMessage msg).marshal := by
  unfold answer Accepts
  rw [SubmissionIngressDTO.unmarshal_marshal]
  by_cases hwords : msg.problemId < 2^64 ∧ msg.submissionId < 2^64
  · rw [if_pos hwords]
    cases hvalid : validateIngressMessage msg with
    | none =>
      constructor
      · intro h
        simp only [hvalid, Option.some.injEq] at h
        exact ⟨⟨hwords, rfl⟩, h.symm⟩
      · rintro ⟨-, rfl⟩
        simp only [hvalid]
    | some e => simp [hvalid]
  · rw [if_neg hwords]
    constructor
    · rintro ⟨⟩
    · rintro ⟨⟨h, -⟩, -⟩
      exact absurd h hwords

/-- The message can be read and passes `ValidateIngressMessage`. -/
def Takes (rawMsg : Payload) : Prop :=
  ∃ msg ∈ SubmissionIngressDTO.unmarshal rawMsg, validateIngressMessage msg = none

instance (rawMsg : Payload) : Decidable (Takes rawMsg) :=
  inferInstanceAs (Decidable (∃ msg ∈ SubmissionIngressDTO.unmarshal rawMsg, _))

/-- A message is answered from what is read, when that is complete. -/
theorem answer_of_unmarshal {rawMsg : Payload} {msg : SubmissionIngressDTO}
    (hread : SubmissionIngressDTO.unmarshal rawMsg = some msg)
    (hvalid : validateIngressMessage msg = none) :
    answer rawMsg = some (egressMessage msg).marshal := by
  unfold answer
  rw [hread]
  simp only [hvalid]

/-- The messages of central-service that the worker takes. -/
theorem takes_marshal (msg : SubmissionIngressDTO) : Takes msg.marshal ↔ Accepts msg := by
  unfold Takes Accepts
  rw [SubmissionIngressDTO.unmarshal_marshal]
  constructor
  · rintro ⟨read, hread, hvalid⟩
    split_ifs at hread with hwords
    · cases hread
      exact ⟨hwords, hvalid⟩
    · cases hread
  · rintro ⟨hwords, hvalid⟩
    exact ⟨msg, if_pos hwords, hvalid⟩

/-- The answer can be read. -/
theorem unmarshal_answer {msg : SubmissionIngressDTO} (h : Accepts msg) :
    SubmissionEgressDTO.unmarshal (egressMessage msg).marshal = some (egressMessage msg) := by
  rw [SubmissionEgressDTO.unmarshal_marshal rfl]
  exact if_pos h.1.2

/-- One round of the worker's loop on its two queues. When the answer cannot be published, the
message goes back onto the ingress queue. -/
def work (publishFails : Bool) (ingress egress : RedisQueue) : RedisQueue × RedisQueue :=
  match ingress.consume with
  | (none, ingress) => (ingress, egress)
  | (some rawMsg, ingress) =>
    match answer rawMsg with
    | none => (ingress.ack rawMsg, egress)
    | some payload =>
      if publishFails then (ingress.requeue rawMsg, egress)
      else (ingress.ack rawMsg, egress.publish payload)

end Bsg.Worker
