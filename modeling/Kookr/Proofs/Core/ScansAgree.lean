import Kookr.Lib.ListAt
import Kookr.Sanity.Core.ScanSteps

/-! The usage of a task does not depend on how the scans interleave, in a run in which every read is parsed
where the transcript has been parsed to by then, and no line that is parsed is `null`. Two scans that read
the same bytes count them twice, but for what an id or a total makes idempotent. -/

namespace Kookr.Core

open Kookr.Lib TokenTracker OrderedMap List Option

namespace TokenScans

variable {ν : Type} [Zero ν] [Add ν] [Sub ν] [DecidableEq ν] {num : NumberText ν}

/-- The bytes of a file, none where there is no such file. -/
def fileOf (s : TokenScans ν) (path : String) : Bytes := (s.files.get path).getD []

variable (num) in
/-- A scan parses what it has read where the transcript has been parsed to, and none of the lines is `null`. -/
def Undisturbed (s : TokenScans ν) : ScanEvent → Prop
  | .scan i .parse => ∀ call ∈ s.calls[i]?, ∀ path ∈ call.paths.head?, ∀ state ∈ s.tracker.transcripts.get path,
    match call.stage with
    | .read start _ buffer =>
      (throughLastNewline buffer = [] ∨ state.parseByteOffset = start) ∧
        ∀ l ∈ transcriptLines num (throughLastNewline buffer), l.isEntry = true
    | _ => True
  | _ => True

instance Undisturbed.decidable (s : TokenScans ν) (e : ScanEvent) : Decidable (s.Undisturbed num e) := by
  unfold Undisturbed
  split
  · have inst : ∀ (stage : ScanStage) (state : TranscriptState ν), Decidable (match stage with
        | .read start _ buffer =>
          (throughLastNewline buffer = [] ∨ state.parseByteOffset = start) ∧
            ∀ l ∈ transcriptLines num (throughLastNewline buffer), l.isEntry = true
        | _ => True) := fun stage state => by split <;> infer_instance
    infer_instance
  · infer_instance

def Idle (s : TokenScans ν) : Prop := ∀ call ∈ s.calls, call.paths = []

instance Idle.decidable (s : TokenScans ν) : Decidable s.Idle := inferInstanceAs (Decidable (∀ _ ∈ _, _))

/-- The start of a scan that is to cover a task. -/
def Covers (taskId : String) (e : ScanEvent) : Prop := e = .scanAll ∨ e = .scanTask taskId

/-- A step of a scan, none of which fails. -/
def OfScan : ScanEvent → Prop
  | .scan _ action => action ≠ .fail
  | _ => False

instance OfScan.decidable (e : ScanEvent) : Decidable (OfScan e) := by
  unfold OfScan
  split <;> infer_instance

variable (num) in
structure ScanKept (s : TokenScans ν) : Prop where
  parsed : ∀ path state, s.tracker.transcripts.get path = some state → Parsed num (s.fileOf path) state
  buffered : ∀ call ∈ s.calls, ∀ path start size buffer, call.paths.head? = some path → call.stage = .read start size buffer →
    ∃ rest, (s.fileOf path).drop start = buffer ++ rest

/-- The transcripts and the tasks of two trackers. -/
structure SameRegistrations (t t' : TokenTracker ν) : Prop where
  tasks : t'.taskToTranscripts = t.taskToTranscripts
  transcripts : ∀ path, (t'.transcripts.get path).isSome = (t.transcripts.get path).isSome

variable {s s' : TokenScans ν} {e : ScanEvent} {i : ℕ} {call call' : ScanCall} {path : String} {state state' : TranscriptState ν}

section

variable (hk : s.ScanKept num)
include hk

theorem ScanKept.setCall (hcall : ∀ path start size buffer, call.paths.head? = some path →
    call.stage = .read start size buffer → ∃ rest, (s.fileOf path).drop start = buffer ++ rest) (i : ℕ) :
    (s.setCall i call).ScanKept num := by
  refine ⟨hk.parsed, fun c hc => ?_⟩
  rcases mem_or_eq_of_mem_set hc with hc | rfl
  · exact hk.buffered c hc
  · exact hcall

theorem ScanKept.setTranscript (hparsed : Parsed num (s.fileOf path) state) : (s.setTranscript path state).ScanKept num := by
  refine ⟨fun path' state' hget => ?_, hk.buffered⟩
  rcases get_set_some hget with ⟨rfl, rfl⟩ | ⟨-, hget⟩
  · exact hparsed
  · exact hk.parsed path' state' hget

theorem ScanKept.append (path : String) (more : Bytes) :
    ({ s with files := s.files.set path ((s.files.get path).getD [] ++ more) } : TokenScans ν).ScanKept num := by
  have hfile : ∀ path', ∃ more', ({ s with files := s.files.set path ((s.files.get path).getD [] ++ more) } : TokenScans ν).fileOf path' =
      s.fileOf path' ++ more' := by
    intro path'
    unfold fileOf
    rw [get_set]
    split_ifs with heq
    · subst heq
      exact ⟨more, rfl⟩
    · exact ⟨[], (append_nil _).symm⟩
  refine ⟨fun path' state hget => ?_, fun call hcall path' start size buffer hpath hstage => ?_⟩
  · obtain ⟨more', heq⟩ := hfile path'
    rw [heq]
    exact (hk.parsed path' state hget).append more'
  · obtain ⟨more', heq⟩ := hfile path'
    obtain ⟨rest, hrest⟩ := hk.buffered call hcall path' start size buffer hpath hstage
    rw [heq, drop_append, hrest]
    exact ⟨rest ++ _, append_assoc ..⟩

theorem ScanKept.scanStep (hcall : s.calls[i]? = some call) (hpath : call.paths.head? = some path)
    {stage : ScanStage} (hstage : call.stage = stage) {action : ScanAction} (hmeet : s.Undisturbed num (.scan i action))
    (hstep : s.ScanStep num i call path stage action s') : s'.ScanKept num := by
  cases hstep with
  | gone hgone | stat hget => exact hk.setCall (fun _ _ _ _ _ hread => by cases hread) i
  | @resume size state hget =>
    refine (hk.setTranscript ((hk.parsed path state hget).afterStat size)).setCall ?_ i
    intro path start size' buffer _ hread
    cases hstart : (afterStat state size).2 <;> rw [hstart] at hread <;> cases hread
  | @read start size bytes hget =>
    refine hk.setCall ?_ i
    rintro path' start' size' buffer hpath' ⟨⟩
    obtain rfl : path = path' := some.inj (hpath.symm.trans hpath')
    rw [fileOf, hget]
    exact ⟨_, (take_append_drop _ _).symm⟩
  | @parse start size buffer state hget =>
    have hmeet := hmeet call hcall path hpath state hget
    rw [hstage] at hmeet
    have hbuffer := hk.buffered call (mem_of_getElem? hcall) path start size buffer hpath hstage
    obtain ⟨hparsed, hok⟩ := (hk.parsed path state hget).afterRead hbuffer hmeet.1 hmeet.2 size
    refine (hk.setTranscript hparsed).setCall ?_ i
    rw [if_pos hok]
    exact nofun

theorem ScanKept.step (hmeet : s.Undisturbed num e) (hstep : s.step num e = some s') : s'.ScanKept num := by
  have hstart : ∀ paths, ({ s with calls := s.calls ++ [⟨paths, .stat⟩] } : TokenScans ν).ScanKept num := by
    refine fun paths => ⟨hk.parsed, fun call hcall => ?_⟩
    rcases mem_concat_cases hcall with hcall | rfl
    · exact hk.buffered call hcall
    · exact nofun
  cases e with
  | append path bytes =>
    cases hstep
    exact hk.append path bytes
  | scanAll | scanTask taskId =>
    cases hstep
    exact hstart _
  | scan i action =>
    obtain ⟨call, path, rest, hcall, hpaths, hone⟩ := scan_cases hstep
    exact hk.scanStep hcall (by rw [hpaths]; rfl) rfl hmeet hone

end

def ScannedTo (s : TokenScans ν) (path : String) (offset : ℕ) : Prop :=
  ∀ state, s.tracker.transcripts.get path = some state → state.parseByteOffset = offset

/-- What a scan has found that nothing else disturbs. -/
def StageAlone (s : TokenScans ν) (path : String) : ScanStage → Prop
  | .stat => True
  | .sized size => size = (s.fileOf path).length
  | .reading start size => size = (s.fileOf path).length ∧ start < size ∧ s.ScannedTo path start
  | .read start _ buffer => buffer = (s.fileOf path).drop start ∧ buffer ≠ [] ∧ s.ScannedTo path start

/-- One scan is under way, and has scanned to the end what it has come past. -/
def Alone (s : TokenScans ν) (scanned : List String) : Prop :=
  ∃ old call done, s.calls = old ++ [call] ∧ (∀ c ∈ old, c.paths = []) ∧ scanned = done ++ call.paths ∧
    (∀ path ∈ done, s.ScannedTo path (s.fileOf path).length) ∧
      ∀ path, call.paths.head? = some path → s.StageAlone path call.stage

variable {scanned done rest : List String} {old : List ScanCall}

omit [Zero ν] [Add ν] [Sub ν] [DecidableEq ν] in
theorem ScannedTo.setTranscript {offset : ℕ} {path' : String} (h : s.ScannedTo path' offset)
    (hstate : path = path' → state.parseByteOffset = offset) : (s.setTranscript path state).ScannedTo path' offset := by
  intro state' hget
  change (s.tracker.transcripts.set path state).get path' = some state' at hget
  rcases get_set_some hget with ⟨heq, rfl⟩ | ⟨-, hget⟩
  · exact hstate heq
  · exact h state' hget

omit [Zero ν] [Add ν] [Sub ν] [DecidableEq ν] in
theorem setCall_last (hcalls : s.calls = old ++ [call]) (call' : ScanCall) :
    (s.setCall old.length call').calls = old ++ [call'] := by
  simp [TokenScans.setCall, hcalls]

theorem Alone.scanStep (hk : s.ScanKept num) (haligned : ∀ path, LineFile.Aligned (s.fileOf path))
    (hcalls : s.calls = old ++ [call]) (hold : ∀ c ∈ old, c.paths = []) (hscanned : scanned = done ++ call.paths)
    (hdone : ∀ path ∈ done, s.ScannedTo path (s.fileOf path).length) (hpaths : call.paths = path :: rest) {stage : ScanStage}
    (hstage : call.stage = stage) (halone : s.StageAlone path stage) {action : ScanAction} (haction : action ≠ .fail)
    (hmeet : s.Undisturbed num (.scan old.length action)) (hstep : s.ScanStep num old.length call path stage action s') :
    s'.Alone scanned := by
  have hcall : s.calls[old.length]? = some call := by simp [hcalls]
  have hpath : call.paths.head? = some path := by rw [hpaths]; rfl
  -- the transcript has been scanned to its end, and the scan goes on to the next one
  have hnext : ∀ s₁ : TokenScans ν, s₁.calls = s.calls → s₁.files = s.files →
      (∀ path ∈ done, s₁.ScannedTo path (s₁.fileOf path).length) → s₁.ScannedTo path (s₁.fileOf path).length →
      (s₁.setCall old.length call.next).Alone scanned := by
    intro s₁ hcalls₁ hfiles hdone₁ hend
    refine ⟨old, call.next, done ++ [path], setCall_last (hcalls₁.trans hcalls) _, hold, ?_, ?_, fun _ _ => trivial⟩
    · rw [hscanned, ScanCall.next, hpaths, append_assoc]
      rfl
    · intro path' hpath'
      rcases mem_concat_cases hpath' with hpath' | rfl
      · exact hdone₁ path' hpath'
      · exact hend
  -- the scan goes on with the transcript
  have hstay : ∀ stage', s.StageAlone path stage' → (s.setCall old.length ⟨call.paths, stage'⟩).Alone scanned := by
    refine fun stage' hstage' => ⟨old, ⟨call.paths, stage'⟩, done, setCall_last hcalls _, hold, hscanned, hdone, ?_⟩
    intro path' hpath'
    obtain rfl : path = path' := some.inj (hpath.symm.trans hpath')
    exact hstage'
  cases hstep with
  | gone hgone =>
    have hnone : s.fileOf path = [] := by
      rw [fileOf, hgone.resolve_left haction]
      rfl
    refine hnext s rfl rfl hdone fun state hget => ?_
    have hle := (hk.parsed path state hget).offset_le
    rw [hnone] at hle ⊢
    exact Nat.le_zero.1 hle
  | stat hget =>
    refine hstay _ ?_
    show _ = (s.fileOf path).length
    rw [fileOf, hget]
    rfl
  | @resume size state hget =>
    have hsize : size = (s.fileOf path).length := halone
    have hle := (hk.parsed path state hget).offset_le
    unfold afterStat
    by_cases heq : size = state.parseByteOffset
    · rw [if_pos heq]
      have hkept : ∀ path', s.ScannedTo path' (s.fileOf path').length →
          (s.setTranscript path { state with byteOffset := size }).ScannedTo path' (s.fileOf path').length :=
        fun path' h => h.setTranscript fun hsame => h state (hsame ▸ hget)
      refine hnext _ rfl rfl (fun path' hpath' => hkept path' (hdone path' hpath')) (hkept path fun state' hget' => ?_)
      rw [hget] at hget'
      cases hget'
      exact heq.symm.trans hsize
    · rw [if_neg heq, if_neg (by omega)]
      refine ⟨old, ⟨call.paths, .reading state.parseByteOffset size⟩, done, setCall_last hcalls _, hold, hscanned, ?_, ?_⟩
      · exact fun path' hpath' => (hdone path' hpath').setTranscript fun hsame => hdone path' hpath' state (hsame ▸ hget)
      · intro path' hpath'
        obtain rfl : path = path' := some.inj (hpath.symm.trans hpath')
        have hat : s.ScannedTo path state.parseByteOffset := fun state' hget' => by
          rw [hget] at hget'
          cases hget'
          rfl
        exact ⟨hsize, by omega, hat.setTranscript fun _ => rfl⟩
  | @read start size bytes hget =>
    obtain ⟨hsize, hlt, hat⟩ := halone
    have hfile : s.fileOf path = bytes := by rw [fileOf, hget]; rfl
    refine hstay _ ⟨?_, ?_, hat⟩
    · rw [hfile] at hsize ⊢
      exact take_of_length_le (by rw [length_drop, hsize])
    · rw [hfile] at hsize
      refine ne_nil_of_length_pos ?_
      rw [length_take, length_drop]
      omega
  | @parse start size buffer state hget =>
    obtain ⟨hbuffer, hne, hat⟩ := halone
    have hmeet := hmeet call hcall path hpath state hget
    rw [hstage] at hmeet
    have hread : ∃ rest, (s.fileOf path).drop start = buffer ++ rest := ⟨[], by rw [hbuffer, append_nil]⟩
    obtain ⟨-, hok⟩ := (hk.parsed path state hget).afterRead hread hmeet.1 hmeet.2 size
    have hlt : start < (s.fileOf path).length := by
      rw [hbuffer] at hne
      exact Nat.lt_of_not_le fun hle => hne (drop_eq_nil_of_le hle)
    have hends : LineFile.Aligned buffer := by
      rcases haligned path with hnil | hlast
      · rw [hnil] at hlt
        cases hlt
      · right
        rw [hbuffer, getLast?_drop, if_neg (by omega), hlast]
    have hoffset : (TokenScans.afterRead num state start size buffer).1.parseByteOffset = (s.fileOf path).length := by
      unfold TokenScans.afterRead
      rw [throughLastNewline_of_aligned hends]
      cases buffer with
      | nil => exact absurd rfl hne
      | cons b buffer =>
        show start + (b :: buffer).length = _
        rw [hbuffer, length_drop]
        omega
    rw [if_pos hok]
    refine hnext (s.setTranscript path (afterRead num state start size buffer).1) rfl rfl ?_ ?_
    · exact fun path' hpath' => (hdone path' hpath').setTranscript fun hsame => hsame ▸ hoffset
    · intro state' hget'
      change (s.tracker.transcripts.set path _).get path = some state' at hget'
      rw [get_set_self] at hget'
      cases hget'
      exact hoffset

theorem Alone.step (halone : s.Alone scanned) (hk : s.ScanKept num) (haligned : ∀ path, LineFile.Aligned (s.fileOf path))
    (hscan : OfScan e) (hmeet : s.Undisturbed num e) (hstep : s.step num e = some s') : s'.Alone scanned := by
  obtain ⟨old, last, done, hcalls, hold, hscanned, hdone, hstage⟩ := halone
  cases e with
  | append path bytes | scanAll | scanTask taskId => cases hscan
  | scan i action =>
    obtain ⟨call, path, rest, hcall, hpaths, hone⟩ := scan_cases hstep
    rw [hcalls] at hcall
    rcases getElem?_concat_cases hcall with ⟨rfl, rfl⟩ | hcall
    · exact Alone.scanStep hk haligned hcalls hold hscanned hdone hpaths rfl (hstage path (by rw [hpaths]; rfl)) hscan hmeet hone
    · rw [hold call (mem_of_getElem? hcall)] at hpaths
      cases hpaths

omit [Zero ν] [Add ν] [Sub ν] [DecidableEq ν] in
theorem Alone.ended (halone : s.Alone scanned) (hidle : s.Idle) (hpath : path ∈ scanned) :
    s.ScannedTo path (s.fileOf path).length := by
  obtain ⟨old, call, done, hcalls, -, rfl, hdone, -⟩ := halone
  have hnil : call.paths = [] := hidle call (by simp [hcalls])
  rw [hnil, append_nil] at hpath
  exact hdone path hpath

omit [Zero ν] [Add ν] [Sub ν] [DecidableEq ν] in
theorem SameRegistrations.trans {t t' t'' : TokenTracker ν} (h : SameRegistrations t t') (h' : SameRegistrations t' t'') :
    SameRegistrations t t'' :=
  ⟨h'.tasks.trans h.tasks, fun path => (h'.transcripts path).trans (h.transcripts path)⟩

omit [Zero ν] [Add ν] [Sub ν] [DecidableEq ν] in
theorem sameRegistrations_setTranscript (hget : s.tracker.transcripts.get path = some state') (state : TranscriptState ν) :
    SameRegistrations s.tracker (s.setTranscript path state).tracker := by
  refine ⟨rfl, fun path' => ?_⟩
  show ((s.tracker.transcripts.set path state).get path').isSome = _
  rw [get_set]
  split_ifs with heq
  · rw [← heq, hget]
    rfl
  · rfl

theorem sameRegistrations_step (hstep : s.step num e = some s') : SameRegistrations s.tracker s'.tracker := by
  cases e with
  | append path bytes | scanAll | scanTask taskId => cases hstep; exact ⟨rfl, fun _ => rfl⟩
  | scan i action =>
    obtain ⟨call, path, rest, -, -, hone⟩ := scan_cases hstep
    generalize call.stage = stage at hone
    cases hone with
    | gone hgone | stat hget => exact ⟨rfl, fun _ => rfl⟩
    | resume hget => exact sameRegistrations_setTranscript hget _
    | read hget => exact ⟨rfl, fun _ => rfl⟩
    | parse hget => exact sameRegistrations_setTranscript hget _

theorem files_of_scan (hscan : OfScan e) (hstep : s.step num e = some s') : s'.files = s.files := by
  cases e with
  | append path bytes | scanAll | scanTask taskId => cases hscan
  | scan i action =>
    obtain ⟨call, path, rest, -, -, hone⟩ := scan_cases hstep
    generalize call.stage = stage at hone
    cases hone <;> rfl

omit [Add ν] [Sub ν] [DecidableEq ν] in
theorem registered_fresh (files : OrderedMap String Bytes) (registrations : List (String × String)) :
    ∀ path (state : TranscriptState ν), (registered files registrations).transcripts.get path = some state →
      state.parseByteOffset = 0 ∧ state.totals = .empty := by
  induction registrations using reverseRecOn with
  | nil => exact nofun
  | append_singleton registrations r ih =>
    intro path state hget
    unfold registered at hget ih
    rw [foldl_append, foldl_cons, foldl_nil, register] at hget
    split_ifs at hget
    · exact ih path state hget
    · change (set _ r.1 _).get path = some state at hget
      rcases get_set_some hget with ⟨-, rfl⟩ | ⟨-, hget⟩
      · exact ⟨rfl, rfl⟩
      · exact ih path state hget

omit [Add ν] [Sub ν] [DecidableEq ν] in
theorem SameRegistrations.register {t t' : TokenTracker ν} (h : SameRegistrations t t') (files files' : OrderedMap String Bytes)
    (path taskId : String) : SameRegistrations (t.register files path taskId) (t'.register files' path taskId) := by
  unfold TokenTracker.register has
  rw [h.transcripts path]
  split_ifs
  · exact h
  · refine ⟨by simp only [h.tasks], fun path' => ?_⟩
    show (get (set _ _ _) path').isSome = (get (set _ _ _) path').isSome
    rw [get_set, get_set]
    split_ifs
    · rfl
    · exact h.transcripts path'

omit [Add ν] [Sub ν] [DecidableEq ν] in
theorem registered_same (files files' : OrderedMap String Bytes) (registrations : List (String × String)) :
    SameRegistrations (.registered files registrations : TokenTracker ν) (.registered files' registrations) := by
  have hfold : ∀ t t' : TokenTracker ν, SameRegistrations t t' →
      SameRegistrations (registrations.foldl (fun t r => t.register files r.1 r.2) t)
        (registrations.foldl (fun t r => t.register files' r.1 r.2) t') := by
    induction registrations with
    | nil => exact fun t t' h => h
    | cons r registrations ih => exact fun t t' h => ih _ _ (h.register files files' r.1 r.2)
  exact hfold _ _ ⟨rfl, fun _ => rfl⟩

theorem scanKept_start (registrations : List (String × String)) (files : OrderedMap String Bytes) :
    (start registrations files : TokenScans ν).ScanKept num := by
  refine ⟨fun path state hget => ?_, nofun⟩
  obtain ⟨hoffset, htotals⟩ := registered_fresh files registrations path state hget
  exact .fresh hoffset htotals

/-- The transcripts that a scan begins with. -/
def scannedBy (t : TokenTracker ν) : ScanEvent → List String
  | .scanAll => t.transcripts.keys
  | .scanTask taskId => ((t.taskToTranscripts.get taskId).getD []).filter fun path => t.transcripts.has path
  | _ => []

omit [Zero ν] [Add ν] [Sub ν] [DecidableEq ν] in
theorem mem_scannedBy {t : TokenTracker ν} {taskId : String} (hcovers : Covers taskId e) :
    path ∈ scannedBy t e ↔ (t.transcripts.get path).isSome = true ∧
      (e = .scanTask taskId → path ∈ (t.taskToTranscripts.get taskId).getD []) := by
  rcases hcovers with rfl | rfl
  · rw [scannedBy, ← get_isSome_iff]
    simp
  · rw [scannedBy, mem_filter, and_comm, has]
    simp

/-- In a scan that runs alone every read is parsed where the transcript has been parsed to. -/
theorem undisturbed_of_alone (halone : s.Alone scanned) (hk : s.ScanKept num)
    (hentries : ∀ path ∈ scanned, ∀ l ∈ transcriptLines num (s.fileOf path), l.isEntry = true) (e : ScanEvent) :
    s.Undisturbed num e := by
  obtain ⟨old, last, done, hcalls, hold, hscanned, -, hstage⟩ := halone
  unfold Undisturbed
  split
  · next i =>
    intro call hcall path hpath state hget
    rw [hcalls] at hcall
    rcases getElem?_concat_cases hcall with ⟨rfl, rfl⟩ | hcall
    · have hfound := hstage path hpath
      split
      · next start size buffer hread =>
        rw [hread] at hfound
        obtain ⟨rfl, -, hat⟩ := hfound
        refine ⟨.inr (hat state hget), ?_⟩
        obtain ⟨whole, rest, hfile, hoffset, hwhole, -⟩ := hk.parsed path state hget
        have hstart : start = whole.length := (hat state hget).symm.trans hoffset
        obtain ⟨cut, hcut⟩ := throughLastNewline_prefix rest
        have hlines : transcriptLines num (s.fileOf path) = transcriptLines num whole ++
            (transcriptLines num (throughLastNewline rest) ++ transcriptLines num cut) := by
          rw [← transcriptLines_append (throughLastNewline_aligned rest), hcut, ← transcriptLines_append hwhole, hfile]
        have hmem : path ∈ scanned := by
          rw [hscanned]
          exact mem_append_right _ (mem_of_mem_head? hpath)
        intro l hl
        rw [hfile, hstart, drop_left] at hl
        refine hentries path hmem l ?_
        rw [hlines]
        exact mem_append_right _ (mem_append_left _ hl)
      · trivial
    · rw [hold call (mem_of_getElem? hcall)] at hpath
      cases hpath
  · trivial

/-- What a scan that has run alone leaves. -/
structure Scanned (num : NumberText ν) (s t : TokenScans ν) (scanned : List String) : Prop where
  kept : t.ScanKept num
  files : t.files = s.files
  same : SameRegistrations s.tracker t.tracker
  ended : ∀ path ∈ scanned, t.ScannedTo path (s.fileOf path).length

variable {t : TokenScans ν} {scan : ScanEvent} {more : List ScanEvent} {taskId : String}

theorem alone_start (hidle : s.Idle) (hcovers : Covers taskId scan) (hstep : s.step num scan = some s') :
    s'.Alone (scannedBy s.tracker scan) ∧ s'.files = s.files := by
  rcases hcovers with rfl | rfl <;> cases hstep
  · exact ⟨⟨s.calls, _, [], rfl, hidle, rfl, fun _ h => absurd h not_mem_nil, fun _ _ => trivial⟩, rfl⟩
  · exact ⟨⟨s.calls, _, [], rfl, hidle, rfl, fun _ h => absurd h not_mem_nil, fun _ _ => trivial⟩, rfl⟩

theorem scanned_of_run (hk : s.ScanKept num) (hidle : s.Idle) (haligned : ∀ path, LineFile.Aligned (s.fileOf path))
    (hcovers : Covers taskId scan) (hmeet : StepsMeet (step num) (Undisturbed num) s (scan :: more))
    (hscan : ∀ e ∈ more, OfScan e) (hrun : exec (step num) s (scan :: more) = some t) (hdone : t.Idle) :
    Scanned num s t (scannedBy s.tracker scan) := by
  have hsame : SameRegistrations s.tracker t.tracker := by
    have hstep : ∀ s₁ e s₂, SameRegistrations s.tracker s₁.tracker → TokenScans.step num s₁ e = some s₂ →
        SameRegistrations s.tracker s₂.tracker := fun _ _ _ h hstep => h.trans (sameRegistrations_step hstep)
    exact exec_preserves hstep ⟨rfl, fun _ => rfl⟩ hrun
  obtain ⟨s₁, hstart, hmore⟩ := exec_cons_eq_some.1 hrun
  obtain ⟨halone, hfiles⟩ := alone_start hidle hcovers hstart
  have hstep : ∀ s₁ e s₂, (s₁.ScanKept num ∧ s₁.Alone (scannedBy s.tracker scan) ∧ s₁.files = s.files) →
      (s₁.Undisturbed num e ∧ OfScan e) → TokenScans.step num s₁ e = some s₂ →
      s₂.ScanKept num ∧ s₂.Alone (scannedBy s.tracker scan) ∧ s₂.files = s.files := by
    rintro s₁ e s₂ ⟨hk, halone, hfiles⟩ ⟨hmeet, hscan⟩ hstep
    refine ⟨hk.step hmeet hstep, halone.step hk (fun path => ?_) hscan hmeet hstep, (files_of_scan hscan hstep).trans hfiles⟩
    rw [fileOf, hfiles]
    exact haligned path
  obtain ⟨hk', halone', hfiles'⟩ := exec_invariant hstep ⟨hk.step hmeet.1 hstart, halone, hfiles⟩
    ((hmeet.2 s₁ hstart).and_forall hscan) hmore
  refine ⟨hk', hfiles', hsame, fun path hpath => ?_⟩
  have hended := halone'.ended hdone hpath
  rwa [fileOf, hfiles'] at hended

theorem Scanned.entries (h : Scanned num s t scanned) (hpath : path ∈ scanned) (hsome : (s.tracker.transcripts.get path).isSome = true) :
    ∃ state, t.tracker.transcripts.get path = some state ∧ (∀ l ∈ transcriptLines num (s.fileOf path), l.isEntry = true) ∧
      state.totals = (TranscriptTotals.empty.processLines num (transcriptLines num (s.fileOf path))).1 := by
  rw [← h.same.transcripts] at hsome
  obtain ⟨state, hget⟩ := isSome_iff_exists.1 hsome
  have hfile : t.fileOf path = s.fileOf path := by rw [fileOf, h.files, fileOf]
  have hparsed := h.kept.parsed path state hget
  rw [hfile] at hparsed
  exact ⟨state, hget, hparsed.whole (h.ended path hpath state hget)⟩

variable {registrations : List (String × String)} {files : OrderedMap String Bytes} {events more' : List ScanEvent} {u : TokenScans ν}

/-- The usage is what a fresh tracker makes of the final files. -/
theorem usage_of_scans [LT ν] [DecidableLT ν] (pricing : TokenPricing ν)
    (hmeet : StepsMeet (step num) (Undisturbed num) (start registrations files) (events ++ scan :: more))
    (hrun : exec (step num) (start registrations files) events = some s) (hidle : s.Idle)
    (haligned : ∀ path, LineFile.Aligned (s.fileOf path)) (hcovers : Covers taskId scan) (hscan : ∀ e ∈ more, OfScan e)
    (hlast : exec (step num) s (scan :: more) = some t) (hdone : t.Idle) (hscan' : ∀ e ∈ more', OfScan e)
    (hfresh : exec (step num) (start registrations s.files) (scan :: more') = some u) (hdone' : u.Idle) :
    t.tracker.getUsage pricing taskId = u.tracker.getUsage pricing taskId := by
  obtain ⟨hmeetRun, hmeetLast⟩ := hmeet.append hrun
  have hkeeps : ∀ s₁ e s₂, s₁.ScanKept num → s₁.Undisturbed num e → TokenScans.step num s₁ e = some s₂ → s₂.ScanKept num :=
    fun _ _ _ hk hmeet hstep => hk.step hmeet hstep
  have hk : s.ScanKept num := exec_invariant hkeeps (scanKept_start registrations files) hmeetRun hrun
  have hlastScanned := scanned_of_run hk hidle haligned hcovers hmeetLast hscan hlast hdone
  -- the fresh tracker has the same transcripts
  have hsame : SameRegistrations s.tracker (start registrations s.files : TokenScans ν).tracker := by
    have hstep : ∀ s₁ e s₂, SameRegistrations (start registrations files : TokenScans ν).tracker s₁.tracker →
        TokenScans.step num s₁ e = some s₂ → SameRegistrations (start registrations files : TokenScans ν).tracker s₂.tracker :=
      fun _ _ _ h hstep => h.trans (sameRegistrations_step hstep)
    have hs : SameRegistrations (start registrations files : TokenScans ν).tracker s.tracker :=
      exec_preserves hstep ⟨rfl, fun _ => rfl⟩ hrun
    have hnew := registered_same (ν := ν) files s.files registrations
    exact ⟨hnew.tasks.trans hs.tasks.symm, fun path => (hnew.transcripts path).trans (hs.transcripts path).symm⟩
  have hmem : ∀ path, path ∈ scannedBy (start registrations s.files : TokenScans ν).tracker scan ↔ path ∈ scannedBy s.tracker scan := by
    intro path
    rw [mem_scannedBy hcovers, mem_scannedBy hcovers, hsame.transcripts, hsame.tasks]
  have hentries : ∀ path ∈ scannedBy (start registrations s.files : TokenScans ν).tracker scan,
      ∀ l ∈ transcriptLines num (s.fileOf path), l.isEntry = true := by
    intro path hpath
    have hpath' := (hmem path).1 hpath
    obtain ⟨state, -, hentries, -⟩ := hlastScanned.entries hpath' ((mem_scannedBy hcovers).1 hpath').1
    exact hentries
  have hmeetFresh : StepsMeet (step num) (Undisturbed num) (start registrations s.files) (scan :: more') := by
    refine ⟨by rcases hcovers with rfl | rfl <;> trivial, fun s₁ hstart => ?_⟩
    have hkStart : (start registrations s.files : TokenScans ν).ScanKept num := scanKept_start registrations s.files
    obtain ⟨halone, hfiles⟩ := alone_start (fun _ h => absurd h not_mem_nil) hcovers hstart
    let Inv (s₁ : TokenScans ν) : Prop := s₁.ScanKept num ∧
      s₁.Alone (scannedBy (start registrations s.files : TokenScans ν).tracker scan) ∧ s₁.files = s.files
    have hok : ∀ s₁ e, Inv s₁ → OfScan e → s₁.Undisturbed num e := by
      rintro s₁ e ⟨hk, halone, hfiles⟩ -
      refine undisturbed_of_alone halone hk (fun path hpath => ?_) e
      rw [fileOf, hfiles]
      exact hentries path hpath
    have hstep : ∀ s₁ e s₂, Inv s₁ → OfScan e → TokenScans.step num s₁ e = some s₂ → Inv s₂ := by
      rintro s₁ e s₂ hinv hscan hstep
      have hmeet := hok s₁ e hinv hscan
      obtain ⟨hk, halone, hfiles⟩ := hinv
      refine ⟨hk.step hmeet hstep, halone.step hk (fun path => ?_) hscan hmeet hstep, (files_of_scan hscan hstep).trans hfiles⟩
      rw [fileOf, hfiles]
      exact haligned path
    exact StepsMeet.of_invariant hok hstep ⟨hkStart.step (by rcases hcovers with rfl | rfl <;> trivial) hstart, halone, hfiles⟩ hscan'
  have hfreshScanned := scanned_of_run (scanKept_start registrations s.files) (fun _ h => absurd h not_mem_nil) haligned hcovers
    hmeetFresh hscan' hfresh hdone'
  have htotals : t.tracker.transcriptsOf taskId = u.tracker.transcriptsOf taskId := by
    unfold transcriptsOf
    rw [hlastScanned.same.tasks, hfreshScanned.same.tasks, hsame.tasks]
    refine filterMap_congr fun path hpath => ?_
    cases hsome : (s.tracker.transcripts.get path).isSome with
    | false =>
      have ht : (t.tracker.transcripts.get path).isSome = false := (hlastScanned.same.transcripts path).trans hsome
      have hu : (u.tracker.transcripts.get path).isSome = false :=
        (hfreshScanned.same.transcripts path).trans ((hsame.transcripts path).trans hsome)
      rw [isSome_eq_false_iff, isNone_iff_eq_none] at ht hu
      rw [ht, hu]
    | true =>
      have hscanned : path ∈ scannedBy s.tracker scan := (mem_scannedBy hcovers).2 ⟨hsome, fun _ => hpath⟩
      obtain ⟨state, hget, -, htotals⟩ := hlastScanned.entries hscanned hsome
      obtain ⟨state', hget', -, htotals'⟩ := hfreshScanned.entries ((hmem path).2 hscanned) ((hsame.transcripts path).trans hsome)
      rw [hget, hget', map_some, map_some, htotals, htotals']
      rfl
  unfold getUsage
  rw [htotals]

def free : TokenPricing ℤ := ⟨fun _ => false, fun _ _ => 0⟩

def costLine : Bytes := LineFile.line "\x7b\"type\":\"assistant\",\"cost_usd\":1\x7d".toList

def costFile : OrderedMap String Bytes := empty.set "t" costLine

/-- What a scan of one transcript does when it runs alone. -/
def scanThrough (i : ℕ) : List ScanEvent := [.scan i .stat, .scan i .resume, .scan i .read, .scan i .parse]

def scanThenAppend : List ScanEvent := .scanAll :: scanThrough 0 ++ [.append "t" costLine]

omit [Zero ν] [Add ν] [Sub ν] [DecidableEq ν] in
theorem aligned_of_keys (h : ∀ path ∈ s.files.keys, LineFile.Aligned (s.fileOf path)) (path : String) :
    LineFile.Aligned (s.fileOf path) := by
  by_cases hkey : path ∈ s.files.keys
  · exact h path hkey
  · rw [fileOf, (s.files.get_eq_none_iff path).2 hkey]
    exact LineFile.aligned_nil

set_option maxRecDepth 20000 in
/-- A second line is appended after the first scan. -/
theorem usage_of_scans_appended : ∃ s t u : TokenScans ℤ,
    exec (step NumberText.int) (start [("t", "k")] costFile) scanThenAppend = some s ∧
      exec (step NumberText.int) s (.scanTask "k" :: scanThrough 1) = some t ∧
        exec (step NumberText.int) (start [("t", "k")] s.files) (.scanTask "k" :: scanThrough 0) = some u ∧
          t.tracker.getUsage free "k" = u.tracker.getUsage free "k" := by
  have hmeet : StepsMeet (step NumberText.int) (Undisturbed NumberText.int) (start [("t", "k")] costFile)
      (scanThenAppend ++ .scanTask "k" :: scanThrough 1) := by
    decide +kernel
  obtain ⟨s, hs, hidle, haligned, ⟨t, ht, hdone⟩, u, hu, hdone'⟩ : ∃ s ∈ exec (step NumberText.int) (start [("t", "k")] costFile) scanThenAppend,
      s.Idle ∧ (∀ path ∈ s.files.keys, LineFile.Aligned (s.fileOf path)) ∧
        (∃ t ∈ exec (step NumberText.int) s (.scanTask "k" :: scanThrough 1), t.Idle) ∧
          ∃ u ∈ exec (step NumberText.int) (start [("t", "k")] s.files) (.scanTask "k" :: scanThrough 0), u.Idle := by
    decide +kernel
  refine ⟨s, t, u, hs, ht, hu, ?_⟩
  exact usage_of_scans free hmeet hs hidle (aligned_of_keys haligned) (.inr rfl) (by decide) ht hdone (by decide) hu hdone'

/-- Two scans that read the same line. -/
def overlapping : List ScanEvent :=
  [.scanAll, .scanTask "k", .scan 0 .stat, .scan 0 .resume, .scan 1 .stat, .scan 1 .resume, .scan 0 .read, .scan 1 .read,
    .scan 0 .parse, .scan 1 .parse]

set_option maxRecDepth 20000 in
/-- The line costs 1 and is counted twice. -/
theorem overlapping_scans_count_twice : ∃ s ∈ exec (step NumberText.int) (start [("t", "k")] costFile) overlapping, s.Idle ∧
      (∀ path ∈ s.files.keys, LineFile.Aligned (s.fileOf path)) ∧
        (∃ t ∈ exec (step NumberText.int) s [.scanTask "k", .scan 2 .stat, .scan 2 .resume], t.Idle ∧
          (t.tracker.getUsage free "k").map TokenTracker.TokenUsage.costUsd = some 2) ∧
        ∃ u ∈ exec (step NumberText.int) (start [("t", "k")] s.files) (.scanTask "k" :: scanThrough 0), u.Idle ∧
          (u.tracker.getUsage free "k").map TokenTracker.TokenUsage.costUsd = some 1 := by
  decide +kernel

end TokenScans

end Kookr.Core
