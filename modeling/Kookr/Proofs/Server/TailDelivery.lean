import Kookr.Sanity.Server.TailSteps

/-! Every record reaches the watcher once the pass is over, and nothing else does, in every
interleaving of the writer with passes that find their files. A rotation between the look
at the hook file and its opening makes the pass read the new file behind the old offset. -/

namespace Kookr.Server

open Kookr.Lib

namespace HookTail

/-- No line but a record's has been injected, and when no pass is under way, every record
that had been written when the last one began has been. -/
structure Delivered (s : HookTail) : Prop where
  whole : ∀ line ∈ s.injected, ∃ record ∈ s.disk.written, record.text = line
  passed : s.phase = .idle → (s.present.map JsonRecord.text).Sublist s.injected

theorem TailOk.injected_prefix {s : HookTail} (h : TailOk s) : s.injected <+: s.disk.written.map JsonRecord.text := by
  rcases h.position with ⟨-, -, hinjected⟩ | ⟨ino, k, hat⟩
  · rw [hinjected]
    exact List.nil_prefix
  · rw [hat.injected]
    refine List.IsPrefix.map _ (List.IsPrefix.trans ?_ (s.disk.before_prefix hat.lt))
    rw [HookDisk.before_succ]
    exact (List.prefix_append_right_inj _).2 (List.take_prefix _ _)

theorem TailOk.delivered {s : HookTail} (h : TailOk s) : Delivered s := by
  refine ⟨fun line hline => ?_, fun hidle => ?_⟩
  · obtain ⟨record, hrecord, rfl⟩ := List.mem_map.1 (h.injected_prefix.subset hline)
    exact ⟨record, hrecord, rfl⟩
  · have hphase := h.phase
    unfold PhaseOk at hphase
    rw [hidle] at hphase
    refine (List.prefix_of_prefix_length_le (List.IsPrefix.map _ h.present) h.injected_prefix ?_).sublist
    rw [List.length_map]
    exact hphase

theorem delivered_of_finds_files {s : HookTail} {events : List Event}
    (hfinds : StepsMeet step FindsItsFile .initial events) (hrun : exec step .initial events = some s) : Delivered s :=
  (exec_invariant (fun _ _ _ h hok hstep => h.step hok hstep) TailOk.initial hfinds hrun).delivered

instance : (s : HookTail) → Decidable (s.FindsItsFile .advance)
  | ⟨⟨_, _, none, none⟩, _, _, .activeStat, _, _⟩ => isTrue nofun
  | ⟨⟨files, created, none, some ino⟩, offset, inode, .activeStat, _, _⟩ =>
    decidable_of_iff (inode = some ino ∧ HookDisk.size ⟨files, created, none, some ino⟩ ino ≤ offset)
      ⟨fun h _ heq => Option.some.inj heq ▸ h, fun h => h ino rfl⟩
  | ⟨⟨_, _, some _, rotated⟩, _, inode, .activeStat, _, _⟩ => inferInstanceAs (Decidable (inode = none → rotated = none))
  | ⟨disk, _, inode, .tailStat .., _, _⟩ => inferInstanceAs (Decidable (disk.rotated = inode))
  | ⟨disk, _, inode, .tailOpen .., _, _⟩ => inferInstanceAs (Decidable (disk.rotated = inode))
  | ⟨disk, _, inode, .activeOpen .., _, _⟩ => inferInstanceAs (Decidable (disk.active = inode))
  | ⟨_, _, _, .idle, _, _⟩ => isTrue trivial
  | ⟨_, _, _, .tailRead .., _, _⟩ => isTrue trivial
  | ⟨_, _, _, .activeRead .., _, _⟩ => isTrue trivial

instance (s : HookTail) : (e : Event) → Decidable (s.FindsItsFile e)
  | .create => isTrue trivial
  | .append _ => isTrue trivial
  | .rotate => isTrue trivial
  | .begin => isTrue trivial
  | .advance => inferInstance

def emptyRecord : JsonRecord := ⟨['\x7b', '\x7d'], by decide +kernel⟩

def numberRecord : JsonRecord := ⟨['\x7b', '"', 'a', '"', ':', '1', '\x7d'], by decide +kernel⟩

def rotatedBetween : List Event :=
  [.create, .append emptyRecord, .begin, .advance, .advance, .advance, .append numberRecord, .rotate, .create,
    .append emptyRecord, .begin] ++ List.replicate 6 .advance

set_option maxRecDepth 100000 in
theorem delivered_of_finds_files_rotatedBetween : ∃ s, exec step .initial rotatedBetween = some s ∧
    s.injected = [emptyRecord.text, numberRecord.text, emptyRecord.text] ∧ Delivered s := by
  have hfinds : StepsMeet step FindsItsFile .initial rotatedBetween := by decide +kernel
  have hinjected : (exec step .initial rotatedBetween).map HookTail.injected =
      some [emptyRecord.text, numberRecord.text, emptyRecord.text] := by decide +kernel
  obtain ⟨s, hrun, hs⟩ := Option.map_eq_some_iff.1 hinjected
  exact ⟨s, hrun, hs, delivered_of_finds_files hfinds hrun⟩

/-- The file is rotated between the look of the second pass and its opening. -/
def rotatedInPass : List Event :=
  [.create, .append emptyRecord, .begin, .advance, .advance, .advance, .append numberRecord, .begin, .advance, .rotate,
    .create, .append numberRecord, .append numberRecord, .advance, .advance]

set_option maxRecDepth 100000 in
/-- The end of a record of the new file is injected for a record of its own. -/
theorem fragment_injected : ∃ s, exec step .initial rotatedInPass = some s ∧
    ['"', ':', '1', '\x7d'] ∈ s.injected ∧ ¬ Delivered s := by
  have hinjected : (exec step .initial rotatedInPass).map (fun s => (s.injected, s.disk.written)) =
      some ([emptyRecord.text, ['"', ':', '1', '\x7d']],
        [emptyRecord, numberRecord, numberRecord, numberRecord]) := by decide +kernel
  obtain ⟨s, hrun, hs⟩ := Option.map_eq_some_iff.1 hinjected
  obtain ⟨hlines, hwritten⟩ := Prod.mk.inj hs
  have hmem : ['"', ':', '1', '\x7d'] ∈ s.injected := by simp [hlines]
  refine ⟨s, hrun, hmem, fun hdelivered => ?_⟩
  obtain ⟨record, hrecord, htext⟩ := hdelivered.whole _ hmem
  rw [hwritten] at hrecord
  revert htext
  revert record
  decide +kernel

end HookTail

end Kookr.Server
