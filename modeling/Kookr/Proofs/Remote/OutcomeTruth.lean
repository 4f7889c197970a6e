import Kookr.Proofs.Remote.PublicationWindow

/-! Whether a recorded rejection means that nothing happened. `executeWithPipeline` writes
the result of a command from three places that do not ask what is recorded already: the
rejection before the audit, the `catch` around `execute`, and the same `catch` around the
append of the accepted result. Where none of them writes over a success, the outcome of a
command that succeeded is not a rejection. -/

namespace Kookr.Remote

open Kookr.Lib PipelineRun

def AppendStatus.isRejected : AppendStatus → Bool
  | .rejected => true
  | _ => false

namespace PipelineRun

/-- `execute` resolved for a delivery of this command. -/
def Succeeded (s : PipelineRun) (commandId : String) : Prop :=
  ∃ i request, .succeeded i ∈ s.trace ∧ s.requests[i]? = some request ∧ request.commandId = commandId

def succeeds (s : PipelineRun) (commandId : String) : PipelineEffect → Bool
  | .succeeded i => s.requests[i]?.any fun request => request.commandId == commandId
  | _ => false

instance (s : PipelineRun) (commandId : String) : Decidable (s.Succeeded commandId) :=
  decidable_of_iff (∃ x ∈ s.trace, s.succeeds commandId x = true) <| by
    constructor
    · rintro ⟨x, hx, hs⟩
      cases x with
      | succeeded i =>
        obtain ⟨request, hreq, hid⟩ := (Option.any_eq_true _ _).1 hs
        exact ⟨i, request, hx, hreq, by simpa using hid⟩
      | _ => cases hs
    · rintro ⟨i, request, hi, hreq, hid⟩
      exact ⟨_, hi, by simp [succeeds, hreq, hid]⟩

/-- No step rejects a command that succeeded, and no accepted result fails to be recorded. -/
def KeepsSuccess (cfg : JournalConfig) (s : PipelineRun) : PipelineEvent → Prop
  | .deliver request handlerAction _ => s.Succeeded request.commandId →
      request.action = handlerAction ∧ s.world.mem.hasTombstone request.grantId = false
  | .authorized i (.refused _) _ | .validated i (.refused _) _ | .executed i (.failed _) _ =>
      ∀ request ∈ s.requests[i]?, ¬ s.Succeeded request.commandId
  | .io i now ok =>
      match s.deliveries[i]? with
      | some ⟨_, .appendAccepted _ append⟩ => (appendStep cfg s.world append now ok).2.isRejected = false
      | _ => True
  | _ => True

instance (cfg : JournalConfig) (s : PipelineRun) (e : PipelineEvent) : Decidable (s.KeepsSuccess cfg e) := by
  unfold KeepsSuccess
  split
  iterate 4 infer_instance
  · split <;> infer_instance
  · infer_instance

structure TruthInv (s : PipelineRun) : Prop where
  bounded : s.TraceBounded
  recorded : ∀ dlv ∈ s.deliveries, dlv.pc ≠ .appendAcceptedFailed
  accepted : ∀ c, s.Succeeded c → ∀ r, s.world.mem.results.get c = some r → r.outcome = .accepted

variable {cfg : JournalConfig} {s s' : PipelineRun} {e : PipelineEvent}

theorem TruthInv.init (cfg : JournalConfig) (d : Disk) : TruthInv (.init cfg d) := by
  refine ⟨.init cfg d, ?_, ?_⟩
  · intro dlv hd
    cases hd
  · rintro c ⟨i, request, hi, -⟩
    cases hi

theorem succeeded_of_step (hb : s.TraceBounded) (h : s.step cfg e = some s') {c : String}
    (hc : s'.Succeeded c) : s.Succeeded c ∨ ∃ i request result now,
      s.deliveries[i]? = some ⟨request, .execute⟩ ∧ e = .executed i (.resolved result) now ∧ request.commandId = c := by
  obtain ⟨i, request, hi, hreq, hid⟩ := hc
  obtain ⟨effects, htrace, -, hocc⟩ := trace_of_step h
  rw [htrace] at hi
  rcases List.mem_append.1 hi with hi | hi
  · rw [hb.request_eq h (mem_trace_of_step h hi) rfl] at hreq
    exact .inl ⟨i, request, hi, hreq, hid⟩
  · obtain ⟨request', result, now, hget, he⟩ := hocc _ hi
    obtain rfl : request' = request :=
      Option.some.inj ((getElem?_requests_of_step h (getElem?_requests hget)).symm.trans hreq)
    exact .inr ⟨i, request', result, now, hget, he, hid⟩

theorem rejected_of_failed {pc : PipelinePc} {append : AppendPc} {status : AppendStatus}
    (hp : pc.append = some append) (h : afterAppend pc status = .appendAcceptedFailed) :
    ∃ result, pc = .appendAccepted result append ∧ status = .rejected := by
  cases pc <;> cases hp <;> cases status <;> first | exact ⟨_, rfl, rfl⟩ | cases h

theorem recorded_of_step (hr : ∀ dlv ∈ s.deliveries, dlv.pc ≠ .appendAcceptedFailed)
    (hok : s.KeepsSuccess cfg e) (h : s.step cfg e = some s') : ∀ dlv ∈ s'.deliveries, dlv.pc ≠ .appendAcceptedFailed := by
  have hset : ∀ {i request pc}, pc ≠ .appendAcceptedFailed →
      ∀ dlv ∈ s.deliveries.set i ⟨request, pc⟩, dlv.pc ≠ .appendAcceptedFailed := by
    intro i request pc hpc dlv hd
    rcases List.mem_or_eq_of_mem_set hd with hd | rfl
    · exact hr dlv hd
    · exact hpc
  have hadd : ∀ {request pc}, pc ≠ .appendAcceptedFailed →
      ∀ dlv ∈ s.deliveries ++ [⟨request, pc⟩], dlv.pc ≠ .appendAcceptedFailed := by
    intro request pc hpc dlv hd
    rcases List.mem_append.1 hd with hd | hd
    · exact hr dlv hd
    · obtain rfl := List.mem_singleton.1 hd
      exact hpc
  cases move_of_step h with
  | accept | turnAway => exact hadd nofun
  | authorized hi | refused hi _ | checkThrew hi _ => exact hset nofun
  | validated hi =>
    unfold validated
    split
    · exact hset nofun
    · exact hset nofun
  | start hi | succeed hi | fail hi _ => exact hset nofun
  | @io i request pc append now ok hi hp =>
    apply hset
    intro hfailed
    obtain ⟨result, rfl, hst⟩ := rejected_of_failed hp hfailed
    simp only [KeepsSuccess, hi, hst] at hok
    cases hok
  | revoke | revokeIo => exact hr

theorem accepted_of_step (hinv : TruthInv s) (hok : s.KeepsSuccess cfg e) (h : s.step cfg e = some s')
    {c : String} (hs : s.Succeeded c) : ∀ r, s'.world.mem.results.get c = some r → r.outcome = .accepted := by
  have hold : ∀ r, s.world.mem.results.get c = some r → r.outcome = .accepted := hinv.accepted c hs
  have hset : ∀ (r₀ : CommandResult) (c₀ : String), (c₀ = c → r₀.outcome = .accepted) →
      ∀ r, (s.world.mem.results.set c₀ r₀).get c = some r → r.outcome = .accepted := by
    intro r₀ c₀ hnew r hr
    rcases OrderedMap.get_set_some hr with ⟨hc, rfl⟩ | ⟨-, hr⟩
    · exact hnew hc
    · exact hold r hr
  cases move_of_step h with
  | @turnAway request action now reason hcause =>
    apply hset
    rintro rfl
    obtain ⟨haction, htomb⟩ := hok hs
    rcases hcause with hne | ht
    · exact absurd haction hne
    · rw [htomb] at ht
      cases ht
  | refused hi hcause =>
    apply hset
    rintro rfl
    rcases hcause with ⟨-, rfl⟩ | ⟨-, rfl⟩
    · exact absurd hs (hok _ (getElem?_requests hi))
    · exact absurd hs (hok _ (getElem?_requests hi))
  | validated hi => exact fun r hr => hold r (results_validated hr)
  | succeed hi => exact hset _ _ (fun _ => rfl)
  | fail hi hcause =>
    apply hset
    rintro rfl
    rcases hcause with ⟨-, rfl⟩ | ⟨rfl, -⟩
    · exact absurd hs (hok _ (getElem?_requests hi))
    · exact absurd rfl (hinv.recorded _ (List.mem_of_getElem? hi))
  | io hi hp | revokeIo => exact fun r hr => hold r ((appendStep_mem ..).2.2 c r hr)
  | _ => exact hold

theorem TruthInv.step (hinv : TruthInv s) (hok : s.KeepsSuccess cfg e) (h : s.step cfg e = some s') : TruthInv s' := by
  refine ⟨hinv.bounded.step h, recorded_of_step hinv.recorded hok h, ?_⟩
  intro c hc
  rcases succeeded_of_step hinv.bounded h hc with hs | ⟨i, request, result, now, hget, rfl, rfl⟩
  · exact accepted_of_step hinv hok h hs
  · -- the success itself is what is recorded last
    simp only [step, hget, Option.some.injEq] at h
    subst h
    intro r hr
    have hset : (s.world.mem.results.set request.commandId (acceptedResult request result)).get
        request.commandId = some r := hr
    rw [OrderedMap.get_set_self] at hset
    cases hset
    rfl

end PipelineRun

/-- Where no step rejects what succeeded, a rejection means that nothing happened. -/
theorem outcome_of_succeeded (cfg : JournalConfig) (d : Disk) {es : List PipelineEvent} {s : PipelineRun}
    (hmeet : StepsMeet (step cfg) (PipelineRun.KeepsSuccess cfg) (.init cfg d) es)
    (hrun : exec (step cfg) (.init cfg d) es = some s) {commandId : String} (hs : s.Succeeded commandId) :
    (s.world.mem.outcome commandId).outcome ≠ .rejected ∧ (s.world.mem.outcome commandId).outcome ≠ .rejectedPreAudit := by
  have hinv : PipelineRun.TruthInv s :=
    exec_invariant (fun _ _ _ hi hok h => hi.step hok h) (.init cfg d) hmeet hrun
  unfold JournalState.outcome
  split
  · rename_i r hr
    rw [hinv.accepted commandId hs r hr]
    exact ⟨nofun, nofun⟩
  · split
    · exact ⟨nofun, nofun⟩
    · exact ⟨nofun, nofun⟩

/-- One delivery of a command, executed with success, up to the append of its result. -/
def executedSkip : List PipelineEvent :=
  deliveredIntent 0 skipCommand ++ [.start 0, .executed 0 (.resolved none) epochStart]

def recordedAndRedelivered : List PipelineEvent :=
  executedSkip ++ List.replicate 2 (.io 0 epochStart true) ++
  [.deliver skipCommand .skip epochStart, .authorized 1 .ok epochStart, .validated 1 .ok epochStart]

theorem stepsMeet_recordedAndRedelivered : StepsMeet (step unrotatedConfig) (PipelineRun.KeepsSuccess unrotatedConfig)
      (.init unrotatedConfig .empty) recordedAndRedelivered := by
  decide +kernel

theorem outcome_of_succeeded_recordedAndRedelivered : ∃ s,
    exec (step unrotatedConfig) (.init unrotatedConfig .empty) recordedAndRedelivered = some s ∧
    s.Succeeded "command" ∧ (s.world.mem.outcome "command").outcome ≠ .rejected ∧
    (s.world.mem.outcome "command").outcome ≠ .rejectedPreAudit := by
  have hany : (exec (step unrotatedConfig) (.init unrotatedConfig .empty) recordedAndRedelivered).any
      (fun s => decide (s.Succeeded "command")) = true := by
    decide +kernel
  obtain ⟨s, hs, hp⟩ := (Option.any_eq_true _ _).1 hany
  have hsucc := of_decide_eq_true hp
  exact ⟨s, hs, hsucc, outcome_of_succeeded unrotatedConfig .empty stepsMeet_recordedAndRedelivered hs hsucc⟩

def acceptedAppendFails : List PipelineEvent :=
  executedSkip ++ [.io 0 epochStart false, .caught 0 "EIO: i/o error, mkdir" epochStart]

def redeliveredAfterRevoke : List PipelineEvent :=
  executedSkip ++ [.revokeGrant "grant" none epochStart, .deliver skipCommand .skip epochStart]

theorem succeeded_and_rejected : (∃ s, exec (step unrotatedConfig) (.init unrotatedConfig .empty) acceptedAppendFails = some s ∧
      s.Succeeded "command" ∧ (s.world.mem.outcome "command").outcome = .rejected) ∧
    ∃ s, exec (step unrotatedConfig) (.init unrotatedConfig .empty) redeliveredAfterRevoke = some s ∧
      s.Succeeded "command" ∧ (s.world.mem.outcome "command").outcome = .rejectedPreAudit := by
  have hany : (exec (step unrotatedConfig) (.init unrotatedConfig .empty) acceptedAppendFails).any
      (fun s => decide (s.Succeeded "command") &&
        decide ((s.world.mem.outcome "command").outcome = .rejected)) = true := by
    decide +kernel
  have hany' : (exec (step unrotatedConfig) (.init unrotatedConfig .empty) redeliveredAfterRevoke).any
      (fun s => decide (s.Succeeded "command") &&
        decide ((s.world.mem.outcome "command").outcome = .rejectedPreAudit)) = true := by
    decide +kernel
  obtain ⟨s, hs, hp⟩ := (Option.any_eq_true _ _).1 hany
  obtain ⟨s', hs', hp'⟩ := (Option.any_eq_true _ _).1 hany'
  simp only [Bool.and_eq_true, decide_eq_true_eq] at hp hp'
  exact ⟨⟨s, hs, hp.1, hp.2⟩,
    ⟨s', hs', hp'.1, hp'.2⟩⟩

end Kookr.Remote
