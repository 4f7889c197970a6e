import Kookr.Spec.Core.TokenTracker

/-! What a scan makes of a transcript. As long as each read is parsed where the last one has ended, a
transcript has been parsed to the totals of its first bytes, up to a newline. -/

namespace Kookr.Core

open Kookr.Lib List

variable {ν : Type} [Zero ν] [Add ν] [Sub ν] [DecidableEq ν] {num : NumberText ν}

variable (num) in
def transcriptLines (bytes : Bytes) : List (TranscriptLine ν) := LineFile.read (readTranscriptLine num) bytes

def TranscriptLine.isEntry : TranscriptLine ν → Bool
  | .null => false
  | .entry _ => true

omit [Zero ν] [Add ν] [Sub ν] [DecidableEq ν] in
theorem readTranscriptLine_nil : readTranscriptLine num [] = none := rfl

omit [Zero ν] [Add ν] [Sub ν] [DecidableEq ν] in
theorem transcriptLines_append {bytes : Bytes} (h : LineFile.Aligned bytes) (more : Bytes) :
    transcriptLines num (bytes ++ more) = transcriptLines num bytes ++ transcriptLines num more :=
  LineFile.read_append _ readTranscriptLine_nil h more

namespace TranscriptTotals

theorem processLines_append {lines : List (TranscriptLine ν)} (h : ∀ l ∈ lines, l.isEntry = true)
    (state : TranscriptTotals ν) (more : List (TranscriptLine ν)) :
    state.processLines num (lines ++ more) = (state.processLines num lines).1.processLines num more := by
  induction lines generalizing state with
  | nil => rfl
  | cons l lines ih =>
    cases l with
    | null => cases h .null mem_cons_self
    | entry entry => exact ih (fun l hl => h l (mem_cons_of_mem _ hl)) _

theorem processLines_ok {lines : List (TranscriptLine ν)} (h : ∀ l ∈ lines, l.isEntry = true)
    (state : TranscriptTotals ν) : (state.processLines num lines).2 = true := by
  induction lines generalizing state with
  | nil => rfl
  | cons l lines ih =>
    cases l with
    | null => cases h .null mem_cons_self
    | entry entry => exact ih (fun l hl => h l (mem_cons_of_mem _ hl)) _

end TranscriptTotals

namespace TokenTracker

theorem throughLastNewline_prefix (buffer : Bytes) : ∃ rest, throughLastNewline buffer ++ rest = buffer :=
  rdropWhile_prefix _ buffer

theorem throughLastNewline_aligned (buffer : Bytes) : LineFile.Aligned (throughLastNewline buffer) := by
  by_cases hnil : throughLastNewline buffer = []
  · exact .inl hnil
  · have hlast := rdropWhile_last_not (fun b => decide (b ≠ 0x0A)) buffer hnil
    refine .inr ?_
    rw [getLast?_eq_some_getLast hnil]
    simpa [throughLastNewline] using hlast

theorem throughLastNewline_of_aligned {buffer : Bytes} (h : LineFile.Aligned buffer) : throughLastNewline buffer = buffer := by
  rcases h with rfl | h
  · rfl
  · refine rdropWhile_eq_self_iff.2 fun hne => ?_
    rw [getLast?_eq_some_getLast hne] at h
    simpa using h

end TokenTracker

variable (num) in
/-- The transcript has been parsed up to the end of a line, and to nothing but these lines. -/
def Parsed (bytes : Bytes) (state : TranscriptState ν) : Prop :=
  ∃ done rest, bytes = done ++ rest ∧ state.parseByteOffset = done.length ∧ LineFile.Aligned done ∧
    (∀ l ∈ transcriptLines num done, l.isEntry = true) ∧
    state.totals = (TranscriptTotals.empty.processLines num (transcriptLines num done)).1

variable {bytes : Bytes} {state : TranscriptState ν} {start size : ℕ} {buffer : Bytes}

theorem Parsed.fresh (hoffset : state.parseByteOffset = 0) (htotals : state.totals = .empty) : Parsed num bytes state := by
  have hnil : transcriptLines num [] = [] := LineFile.read_nil _ readTranscriptLine_nil
  refine ⟨[], bytes, rfl, hoffset, LineFile.aligned_nil, ?_, ?_⟩
  · exact fun l hl => absurd hl not_mem_nil
  · rw [htotals, hnil, TranscriptTotals.processLines]

section

variable (h : Parsed num bytes state)
include h

theorem Parsed.append (more : Bytes) : Parsed num (bytes ++ more) state := by
  obtain ⟨done, rest, rfl, hstate⟩ := h
  exact ⟨done, rest ++ more, by rw [append_assoc], hstate⟩

theorem Parsed.offset_le : state.parseByteOffset ≤ bytes.length := by
  obtain ⟨done, rest, rfl, hoffset, -⟩ := h
  rw [hoffset, length_append]
  exact Nat.le_add_right ..

theorem Parsed.whole (hend : state.parseByteOffset = bytes.length) : (∀ l ∈ transcriptLines num bytes, l.isEntry = true) ∧
      state.totals = (TranscriptTotals.empty.processLines num (transcriptLines num bytes)).1 := by
  obtain ⟨done, rest, rfl, hoffset, -, hentries, htotals⟩ := h
  obtain rfl : rest = [] := by
    rw [length_append] at hend
    exact length_eq_zero_iff.1 (by omega)
  rw [append_nil]
  exact ⟨hentries, htotals⟩

theorem Parsed.afterStat (size : ℕ) : Parsed num bytes (TokenScans.afterStat state size).1 := by
  unfold TokenScans.afterStat
  split_ifs
  · exact h
  · exact .fresh rfl rfl
  · exact h

theorem Parsed.afterRead (hbuffer : ∃ rest, bytes.drop start = buffer ++ rest)
    (hstart : TokenTracker.throughLastNewline buffer = [] ∨ state.parseByteOffset = start)
    (hentries : ∀ l ∈ transcriptLines num (TokenTracker.throughLastNewline buffer), l.isEntry = true) (size : ℕ) :
    Parsed num bytes (TokenScans.afterRead num state start size buffer).1 ∧
      (TokenScans.afterRead num state start size buffer).2 = true := by
  unfold TokenScans.afterRead
  have haligned := TokenTracker.throughLastNewline_aligned buffer
  obtain ⟨cut, hcut⟩ := TokenTracker.throughLastNewline_prefix buffer
  generalize TokenTracker.throughLastNewline buffer = consumable at *
  cases consumable with
  | nil => exact ⟨h, rfl⟩
  | cons b consumable =>
    obtain ⟨done, rest, rfl, hoffset, hdone, hold, htotals⟩ := h
    obtain rfl : start = done.length := by
      rw [← hoffset]
      exact (hstart.resolve_left (by simp)).symm
    obtain ⟨rest', hrest⟩ := hbuffer
    rw [drop_left, ← hcut] at hrest
    have hlines : transcriptLines num (done ++ b :: consumable) = transcriptLines num done ++ transcriptLines num (b :: consumable) :=
      transcriptLines_append hdone _
    refine ⟨⟨done ++ b :: consumable, cut ++ rest', ?_, ?_, ?_, ?_, ?_⟩, TranscriptTotals.processLines_ok hentries _⟩
    · rw [hrest]
      simp
    · rw [length_append]
    · rcases haligned with hnil | hlast
      · cases hnil
      · exact .inr (by rw [getLast?_append, hlast]; rfl)
    · rw [hlines]
      intro l hl
      exact (mem_append.1 hl).elim (hold l) (hentries l)
    · rw [hlines, TranscriptTotals.processLines_append hold, ← htotals]
      rfl

end

namespace TokenScans

variable (num) in
/-- What a step of `scanOne` finds and does. -/
inductive ScanStep (s : TokenScans ν) (i : ℕ) (call : ScanCall) (path : String) : ScanStage → ScanAction → TokenScans ν → Prop where
  | gone {stage : ScanStage} {action : ScanAction} (hgone : action = .fail ∨ s.files.get path = none) :
    ScanStep s i call path stage action (s.setCall i call.next)
  | stat {bytes : Bytes} (hget : s.files.get path = some bytes) :
    ScanStep s i call path .stat .stat (s.setCall i ⟨call.paths, .sized bytes.length⟩)
  | resume {size : ℕ} {state : TranscriptState ν} (hget : s.tracker.transcripts.get path = some state) :
    ScanStep s i call path (.sized size) .resume
      ((s.setTranscript path (afterStat state size).1).setCall i
        ((afterStat state size).2.elim call.next fun start => ⟨call.paths, .reading start size⟩))
  | read {start size : ℕ} {bytes : Bytes} (hget : s.files.get path = some bytes) :
    ScanStep s i call path (.reading start size) .read
      (s.setCall i ⟨call.paths, .read start size ((bytes.drop start).take (size - start))⟩)
  | parse {start size : ℕ} {buffer : Bytes} {state : TranscriptState ν} (hget : s.tracker.transcripts.get path = some state) :
    ScanStep s i call path (.read start size buffer) .parse
      ((s.setTranscript path (afterRead num state start size buffer).1).setCall i
        (if (afterRead num state start size buffer).2 then call.next else ⟨[], .stat⟩))

variable {s s' : TokenScans ν} {i : ℕ} {call : ScanCall} {path : String} {stage : ScanStage} {action : ScanAction}

theorem scanStep_of_scanOne (hstep : s.scanOne num i call path stage action = some s') : s.ScanStep num i call path stage action s' := by
  unfold scanOne at hstep
  split at hstep
  · split at hstep
    · next hnone =>
      cases hstep
      exact .gone (.inr hnone)
    · next bytes hget =>
      cases hstep
      exact .stat hget
  · obtain ⟨state, hget, rfl⟩ := Option.map_eq_some_iff.1 hstep
    exact .resume hget
  · split at hstep
    · next hnone =>
      cases hstep
      exact .gone (.inr hnone)
    · next bytes hget =>
      cases hstep
      exact .read hget
  · obtain ⟨state, hget, rfl⟩ := Option.map_eq_some_iff.1 hstep
    exact .parse hget
  · cases hstep
    exact .gone (.inl rfl)
  · cases hstep
    exact .gone (.inl rfl)
  · cases hstep

theorem scan_cases (hstep : s.step num (.scan i action) = some s') :
    ∃ call path rest, s.calls[i]? = some call ∧ call.paths = path :: rest ∧ s.ScanStep num i call path call.stage action s' := by
  obtain ⟨call, hcall, hstep⟩ := Option.bind_eq_some_iff.1 hstep
  split at hstep
  · cases hstep
  · next path rest hpaths => exact ⟨call, path, rest, hcall, hpaths, scanStep_of_scanOne hstep⟩

end TokenScans

end Kookr.Core
