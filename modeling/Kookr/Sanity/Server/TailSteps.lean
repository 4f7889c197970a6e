import Kookr.Sanity.Server.RecordFraming

/-! Where the watcher stands: it has injected the files before the one it knows, and a part
of that one, up to its offset. The writer only ever adds to the last file. -/

namespace Kookr.Server

open Kookr.Lib Kookr.Remote List Nat

def bytesLength (records : List JsonRecord) : ℕ := (Utf8.encode (recordLines records)).length

variable {records records' : List JsonRecord} {k m : ℕ}

theorem bytesLength_append (records records' : List JsonRecord) :
    bytesLength (records ++ records') = bytesLength records + bytesLength records' := by
  simp [bytesLength, recordLines_append]

theorem bytesLength_pos (h : records ≠ []) : 0 < bytesLength records := by
  obtain ⟨r, rest, rfl⟩ := exists_cons_of_ne_nil h
  have hnewline : (Utf8.encode ['\n']).length = 1 := rfl
  have hsplit : recordLines (r :: rest) = r.text ++ (['\n'] ++ recordLines rest) := recordLines_cons r rest
  rw [bytesLength, hsplit, Utf8.encode_append, Utf8.encode_append, length_append, length_append]
  omega

theorem take_eq_append (hkm : k ≤ m) (records : List JsonRecord) :
    records.take m = records.take k ++ (records.take m).drop k := by
  conv_lhs => rw [← take_append_drop k (records.take m), take_take, min_eq_left hkm]

theorem bytesLength_take_mono (hkm : k ≤ m) (records : List JsonRecord) :
    bytesLength (records.take k) ≤ bytesLength (records.take m) := by
  rw [take_eq_append hkm, bytesLength_append]
  exact le_add_right _ _

/-- Positions are known by their bytes. -/
theorem le_of_bytesLength_le (hk : k ≤ records.length) (h : bytesLength (records.take k) ≤ bytesLength (records.take m)) :
    k ≤ m := by
  by_contra hlt
  have hmk : m ≤ k := Nat.le_of_not_le hlt
  rw [take_eq_append hmk, bytesLength_append] at h
  have hbetween : (records.take k).drop m ≠ [] := by
    intro hnil
    have hlength := congrArg length hnil
    rw [length_drop, length_take, length_nil] at hlength
    omega
  have hpos := bytesLength_pos hbetween
  omega

namespace HookDisk

variable {d d' : HookDisk} {ino : ℕ}

theorem readFileRange_eq (hkm : k ≤ m) (d : HookDisk) (ino : ℕ) : d.readFileRange ino (bytesLength ((d.files ino).take k))
        (bytesLength ((d.files ino).take m) - bytesLength ((d.files ino).take k)) =
      Utf8.encode (recordLines (((d.files ino).take m).drop k)) := by
  have hfile : d.bytes ino = Utf8.encode (recordLines ((d.files ino).take k)) ++
      (Utf8.encode (recordLines (((d.files ino).take m).drop k)) ++
        Utf8.encode (recordLines ((d.files ino).drop m))) := by
    rw [← Utf8.encode_append, ← recordLines_append, ← Utf8.encode_append, ← recordLines_append, ← append_assoc,
      ← take_eq_append hkm, take_append_drop]
    rfl
  unfold readFileRange
  rw [hfile, drop_left' (i := bytesLength ((d.files ino).take k)) rfl]
  refine take_left' ?_
  have hlength : bytesLength ((d.files ino).take m) =
      bytesLength ((d.files ino).take k) + bytesLength (((d.files ino).take m).drop k) := by
    conv_lhs => rw [take_eq_append hkm, bytesLength_append]
  rw [hlength, Nat.add_sub_cancel_left]
  rfl

def before (d : HookDisk) (ino : ℕ) : List JsonRecord := (List.range ino).flatMap d.files

theorem before_succ (d : HookDisk) (ino : ℕ) : d.before (ino + 1) = d.before ino ++ d.files ino := by
  simp [before, range_succ]

theorem before_prefix (d : HookDisk) {i j : ℕ} (h : i ≤ j) : d.before i <+: d.before j := by
  induction j, h using le_induction with
  | base => exact prefix_rfl
  | succ j hij ih =>
    rw [before_succ]
    exact ih.trans (prefix_append _ _)

/-- What a writer can do to the files. -/
structure Grown (d d' : HookDisk) : Prop where
  created : d.created ≤ d'.created
  files : ∀ i, d.files i <+: d'.files i
  closed : ∀ i, i + 1 < d.created → d'.files i = d.files i

theorem Grown.before (h : Grown d d') (hlt : ino < d.created) : d'.before ino = d.before ino := by
  refine flatMap_congr fun i hi => h.closed i ?_
  have hi := mem_range.1 hi
  omega

theorem Grown.take (h : Grown d d') (hk : k ≤ (d.files ino).length) : (d'.files ino).take k = (d.files ino).take k := by
  obtain ⟨rest, hrest⟩ := h.files ino
  rw [← hrest, take_append_of_le_length hk]

theorem Grown.written (h : Grown d d') : d.written <+: d'.written := by
  rcases Nat.eq_zero_or_pos d.created with hzero | hpos
  · rw [HookDisk.written, hzero]
    exact nil_prefix
  · obtain ⟨last, hlast⟩ := Nat.exists_eq_add_of_lt hpos
    rw [zero_add] at hlast
    have hle : last + 1 ≤ d'.created := hlast ▸ h.created
    refine List.IsPrefix.trans ?_ (d'.before_prefix hle)
    change (range d.created).flatMap d.files <+: _
    rw [hlast]
    change d.before (last + 1) <+: _
    rw [before_succ, before_succ, h.before (by omega)]
    exact (prefix_append_right_inj _).2 (h.files last)

/-- The paths name the last files. -/
structure Shape (d : HookDisk) : Prop where
  active : ∀ i, d.active = some i → d.created = i + 1
  rotated : ∀ j, d.rotated = some j → d.active = none ∧ d.created = j + 1 ∨ d.active = some (j + 1)
  unrotated : d.rotated = none → d.active = none ∧ d.created = 0 ∨ d.active = some 0
  blank : ∀ i, d.created ≤ i → d.files i = []

end HookDisk

namespace HookTail

variable {s s' : HookTail} {ino size : ℕ}

/-- The watcher knows a file, and has injected what lies before its offset in it. -/
structure At (s : HookTail) (ino k : ℕ) : Prop where
  inode : s.inode = some ino
  lt : ino < s.disk.created
  le : k ≤ (s.disk.files ino).length
  offset : s.offset = bytesLength ((s.disk.files ino).take k)
  injected : s.injected = (s.disk.before ino ++ (s.disk.files ino).take k).map JsonRecord.text

/-- The size of a file behind which nothing is left that the pass has to bring. -/
structure Seen (d : HookDisk) (present : List JsonRecord) (ino m size : ℕ) : Prop where
  lt : ino < d.created
  le : m ≤ (d.files ino).length
  size : size = bytesLength ((d.files ino).take m)
  present : present.length ≤ (d.before ino).length + m

def PhaseOk (s : HookTail) : Prop :=
  match s.phase with
  | .idle => s.present.length ≤ s.injected.length
  | .activeStat => True
  | .tailStat prevInode ino size => s.inode = some prevInode ∧ prevInode < ino ∧ ∃ m, Seen s.disk s.present ino m size
  | .tailOpen ino size start length => ∃ prevInode, s.inode = some prevInode ∧ ino = prevInode + 1 ∧ start = s.offset ∧
      start + length = s.disk.size prevInode ∧ ∃ m, Seen s.disk s.present ino m size
  | .tailRead handle ino size start length => s.inode = some handle ∧ ino = handle + 1 ∧ start = s.offset ∧
      start + length = s.disk.size handle ∧ ∃ m, Seen s.disk s.present ino m size
  | .activeOpen start length => ∃ ino m, s.inode = some ino ∧ start = s.offset ∧ Seen s.disk s.present ino m (start + length)
  | .activeRead handle start length => s.inode = some handle ∧ start = s.offset ∧ ∃ m, Seen s.disk s.present handle m (start + length)

structure TailOk (s : HookTail) : Prop where
  shape : s.disk.Shape
  present : s.present <+: s.disk.written
  position : s.inode = none ∧ s.offset = 0 ∧ s.injected = [] ∨ ∃ ino k, s.At ino k
  phase : s.PhaseOk

theorem TailOk.at (h : TailOk s) (hinode : s.inode = some ino) : ∃ k, s.At ino k := by
  rcases h.position with ⟨hnone, -⟩ | ⟨ino', k, hat⟩
  · rw [hnone] at hinode
    cases hinode
  · obtain rfl : ino' = ino := Option.some.inj (hat.inode.symm.trans hinode)
    exact ⟨k, hat⟩

theorem At.grown {k : ℕ} {d : HookDisk} (h : s.At ino k) (hgrown : s.disk.Grown d) : At { s with disk := d } ino k := by
  refine ⟨h.inode, h.lt.trans_le hgrown.created, h.le.trans (hgrown.files ino).length_le, ?_, ?_⟩
  · exact h.offset.trans (congrArg bytesLength (hgrown.take h.le).symm)
  · rw [h.injected, hgrown.before h.lt, hgrown.take h.le]

theorem Seen.grown {m : ℕ} {d d' : HookDisk} {present : List JsonRecord} (h : Seen d present ino m size)
    (hgrown : d.Grown d') : Seen d' present ino m size := by
  refine ⟨h.lt.trans_le hgrown.created, h.le.trans (hgrown.files ino).length_le, ?_, ?_⟩
  · exact h.size.trans (congrArg bytesLength (hgrown.take h.le).symm)
  · rw [hgrown.before h.lt]
    exact h.present

/-- What the writer does leaves the watcher where it stands. -/
theorem TailOk.grown {d : HookDisk} (h : TailOk s) (hgrown : s.disk.Grown d) (hshape : d.Shape) :
    TailOk { s with disk := d } := by
  have hclosed : ∀ prevInode, prevInode + 1 < s.disk.created → d.size prevInode = s.disk.size prevInode := by
    intro prevInode hlt
    unfold HookDisk.size HookDisk.bytes
    rw [hgrown.closed prevInode hlt]
  refine ⟨hshape, h.present.trans hgrown.written, ?_, ?_⟩
  · rcases h.position with hnone | ⟨ino, k, hat⟩
    · exact .inl hnone
    · exact .inr ⟨ino, k, hat.grown hgrown⟩
  · have hphase := h.phase
    unfold PhaseOk at hphase ⊢
    cases hp : s.phase with
    | idle => simpa only [hp] using hphase
    | activeStat => simp only
    | tailStat prevInode ino size =>
      simp only [hp] at hphase ⊢
      obtain ⟨hinode, hlt, m, hseen⟩ := hphase
      exact ⟨hinode, hlt, m, hseen.grown hgrown⟩
    | tailOpen ino size start length =>
      simp only [hp] at hphase ⊢
      obtain ⟨prevInode, hinode, rfl, hstart, hlength, m, hseen⟩ := hphase
      exact ⟨prevInode, hinode, rfl, hstart, hlength.trans (hclosed prevInode hseen.lt).symm, m, hseen.grown hgrown⟩
    | tailRead handle ino size start length =>
      simp only [hp] at hphase ⊢
      obtain ⟨hinode, rfl, hstart, hlength, m, hseen⟩ := hphase
      exact ⟨hinode, rfl, hstart, hlength.trans (hclosed handle hseen.lt).symm, m, hseen.grown hgrown⟩
    | activeOpen start length =>
      simp only [hp] at hphase ⊢
      obtain ⟨ino, m, hinode, hstart, hseen⟩ := hphase
      exact ⟨ino, m, hinode, hstart, hseen.grown hgrown⟩
    | activeRead handle start length =>
      simp only [hp] at hphase ⊢
      obtain ⟨hinode, hstart, m, hseen⟩ := hphase
      exact ⟨hinode, hstart, m, hseen.grown hgrown⟩

theorem TailOk.create (h : TailOk s) (hnone : s.disk.active = none) :
    TailOk { s with disk := { s.disk with active := some s.disk.created, created := s.disk.created + 1 } } := by
  refine h.grown ⟨le_succ _, fun _ => prefix_rfl, fun _ _ => rfl⟩ ⟨?_, ?_, ?_, ?_⟩
  · intro i hi
    cases hi
    rfl
  · intro j hj
    rcases h.shape.rotated j hj with ⟨-, hcreated⟩ | hactive
    · exact .inr (congrArg some hcreated)
    · rw [hnone] at hactive
      cases hactive
  · intro hunrotated
    rcases h.shape.unrotated hunrotated with ⟨-, hcreated⟩ | hactive
    · exact .inr (congrArg some hcreated)
    · rw [hnone] at hactive
      cases hactive
  · intro i hi
    exact h.shape.blank i (le_of_succ_le hi)

theorem TailOk.append (h : TailOk s) (hactive : s.disk.active = some ino) (record : JsonRecord) :
    TailOk { s with disk := { s.disk with files := Function.update s.disk.files ino (s.disk.files ino ++ [record]) } } := by
  have hcreated := h.shape.active ino hactive
  refine h.grown ⟨le_rfl, ?_, ?_⟩ ⟨h.shape.active, h.shape.rotated, h.shape.unrotated, ?_⟩
  · intro i
    by_cases hi : i = ino
    · subst hi
      simp
    · simp [hi]
  · intro i hi
    have hne : i ≠ ino := by omega
    simp [hne]
  · intro i hi
    have hne : i ≠ ino := by
      change s.disk.created ≤ i at hi
      omega
    exact (Function.update_of_ne hne _ _).trans (h.shape.blank i hi)

theorem TailOk.rotate (h : TailOk s) (hactive : s.disk.active = some ino) :
    TailOk { s with disk := { s.disk with active := none, rotated := some ino } } := by
  refine h.grown ⟨le_rfl, fun _ => prefix_rfl, fun _ _ => rfl⟩ ⟨nofun, ?_, nofun, h.shape.blank⟩
  intro j hj
  cases hj
  exact .inl ⟨rfl, h.shape.active ino hactive⟩

end HookTail

end Kookr.Server

/-! The steps of a pass that finds the file it is after under every path it goes back to. -/

namespace Kookr.Server

open Kookr.Lib Kookr.Remote

namespace HookTail

variable {s s' : HookTail} {ino size start length k m : ℕ}

/-- A pass that looks at the hook file finds it, or the one renamed away is read to its end;
the first file it finds has not been rotated. The file with `.1` is the one the watcher
knows, and the file it opens to read is the one it has looked at. -/
def FindsItsFile (s : HookTail) : Event → Prop
  | .advance =>
    match s.phase with
    | .activeStat =>
      match s.disk.active with
      | none => ∀ ino, s.disk.rotated = some ino → s.inode = some ino ∧ s.disk.size ino ≤ s.offset
      | some _ => s.inode = none → s.disk.rotated = none
    | .tailStat _ _ _ => s.disk.rotated = s.inode
    | .tailOpen _ _ _ _ => s.disk.rotated = s.inode
    | .activeOpen _ _ => s.disk.active = s.inode
    | _ => True
  | _ => True

/-- Reading between two positions injects the records between them. -/
theorem inject_range (hkm : k ≤ m) (s : HookTail) (ino : ℕ) :
    s.inject (splitHookRecords (Utf8.decode (s.disk.readFileRange ino (bytesLength ((s.disk.files ino).take k))
        (bytesLength ((s.disk.files ino).take m) - bytesLength ((s.disk.files ino).take k))))) =
      { s with injected := s.injected ++ (((s.disk.files ino).take m).drop k).map JsonRecord.text } := by
  rw [HookDisk.readFileRange_eq hkm, Utf8.decode_encode, splitHookRecords_lines]
  unfold inject
  rw [filter_not_blank]

/-- The pass goes on, or ends, with the file it has looked at. -/
theorem settle_ok {offset : ℕ} (hshape : s.disk.Shape) (hpresent : s.present <+: s.disk.written)
    (hseen : Seen s.disk s.present ino m size) (hkm : k ≤ m) (hoffset : offset = bytesLength ((s.disk.files ino).take k))
    (hinjected : s.injected = (s.disk.before ino ++ (s.disk.files ino).take k).map JsonRecord.text) :
    TailOk (s.settle ino size offset) := by
  have hle := bytesLength_take_mono hkm (s.disk.files ino)
  have hsize := hseen.size
  refine ⟨hshape, hpresent, .inr ⟨ino, k, rfl, hseen.lt, hkm.trans hseen.le, hoffset, hinjected⟩, ?_⟩
  unfold PhaseOk settle
  dsimp only
  by_cases hread : size = offset
  · rw [if_pos hread]
    have hmk : m ≤ k := le_of_bytesLength_le hseen.le (by omega)
    have hseen' := hseen.present
    rw [hinjected, List.length_map, List.length_append, List.length_take, min_eq_left (hkm.trans hseen.le)]
    omega
  · rw [if_neg hread]
    refine ⟨ino, m, rfl, rfl, hseen.lt, hseen.le, ?_, hseen.present⟩
    omega

/-- A pass that ends has injected what was there when it began. -/
theorem length_le_injected (hat : s.At ino k) (hpresent : s.present.length ≤ (s.disk.before ino).length + k) :
    s.present.length ≤ s.injected.length := by
  rw [hat.injected, List.length_map, List.length_append, List.length_take, min_eq_left hat.le]
  exact hpresent

section

variable (h : TailOk s)
include h

/-- What had been written when the pass began lies in the files up to the active one. -/
theorem TailOk.seen_active (hactive : s.disk.active = some ino) :
    Seen s.disk s.present ino (s.disk.files ino).length (s.disk.size ino) := by
  have hcreated := h.shape.active ino hactive
  have hlength := h.present.length_le
  have hwritten : s.disk.written = s.disk.before ino ++ s.disk.files ino := by
    rw [← HookDisk.before_succ, ← hcreated]
    rfl
  rw [hwritten, List.length_append] at hlength
  exact ⟨by omega, le_rfl, by rw [List.take_length]; rfl, hlength⟩

omit h in
theorem At.phase (h : s.At ino k) (phase : PassPhase) : At { s with phase := phase } ino k :=
  ⟨h.inode, h.lt, h.le, h.offset, h.injected⟩

theorem TailOk.waits {phase : PassPhase} (hphase : PhaseOk { s with phase := phase }) : TailOk { s with phase := phase } := by
  refine ⟨h.shape, h.present, ?_, hphase⟩
  rcases h.position with hnone | ⟨ino, k, hat⟩
  · exact .inl hnone
  · exact .inr ⟨ino, k, hat.phase phase⟩

omit h in
theorem At.all (h : s.At ino k) (hsize : s.disk.size ino ≤ s.offset) : k = (s.disk.files ino).length := by
  refine le_antisymm h.le (le_of_bytesLength_le le_rfl ?_)
  rw [List.take_length, ← h.offset]
  exact hsize

theorem TailOk.activeStat_none (hactive : s.disk.active = none)
    (hrotated : ∀ ino, s.disk.rotated = some ino → s.inode = some ino ∧ s.disk.size ino ≤ s.offset) :
    TailOk { s with phase := .idle } := by
  refine h.waits ?_
  change s.present.length ≤ s.injected.length
  have hlength := h.present.length_le
  cases hr : s.disk.rotated with
  | none =>
    rcases h.shape.unrotated hr with ⟨-, hcreated⟩ | hsome
    · rw [HookDisk.written, hcreated] at hlength
      exact hlength.trans (Nat.zero_le _)
    · rw [hactive] at hsome
      cases hsome
  | some ino =>
    obtain ⟨hinode, hsize⟩ := hrotated ino hr
    obtain ⟨k, hat⟩ := h.at hinode
    rcases h.shape.rotated ino hr with ⟨-, hcreated⟩ | hsome
    · have hwritten : s.disk.written = s.disk.before (ino + 1) := by
        rw [← hcreated]
        rfl
      rw [hwritten, HookDisk.before_succ, List.length_append] at hlength
      refine length_le_injected hat ?_
      rw [hat.all hsize]
      exact hlength
    · rw [hactive] at hsome
      cases hsome

/-- The file is the one the watcher knows: it goes on behind its offset. -/
theorem TailOk.settle_known (hactive : s.disk.active = some ino) (hinode : s.inode = some ino) :
    TailOk (s.settle ino (s.disk.size ino) (if s.offset > s.disk.size ino then 0 else s.offset)) := by
  obtain ⟨k, hat⟩ := h.at hinode
  have hle := bytesLength_take_mono hat.le (s.disk.files ino)
  rw [List.take_length, ← hat.offset] at hle
  change s.offset ≤ s.disk.size ino at hle
  rw [if_neg (not_lt.2 hle)]
  exact settle_ok h.shape h.present (h.seen_active hactive) hat.le hat.offset hat.injected

/-- The first file that a pass finds is read from its start. -/
theorem TailOk.settle_first (hactive : s.disk.active = some ino) (hinode : s.inode = none) (hrotated : s.disk.rotated = none) :
    TailOk (s.settle ino (s.disk.size ino) (if s.offset > s.disk.size ino then 0 else s.offset)) := by
  have hzero : ino = 0 := by
    rcases h.shape.unrotated hrotated with ⟨hnone, -⟩ | hsome
    · rw [hactive] at hnone
      cases hnone
    · exact Option.some.inj (hactive.symm.trans hsome)
  subst hzero
  rcases h.position with ⟨-, hoffset, hinjected⟩ | ⟨ino, k, hat⟩
  · rw [hoffset]
    exact settle_ok h.shape h.present (h.seen_active hactive) (Nat.zero_le _) rfl hinjected
  · have hsome := hat.inode
    rw [hinode] at hsome
    cases hsome

/-- After the tail of the rotated file, the new one is read from its start. -/
theorem TailOk.settle_fresh {prevInode : ℕ} (hat : s.At prevInode (s.disk.files prevInode).length)
    (hseen : Seen s.disk s.present (prevInode + 1) m size) : TailOk (s.settle (prevInode + 1) size 0) := by
  refine settle_ok h.shape h.present hseen (Nat.zero_le m) rfl ?_
  rw [hat.injected, List.take_length, List.take_zero, List.append_nil, HookDisk.before_succ]

theorem TailOk.activeStat (hphase : s.phase = .activeStat) (hfinds : s.FindsItsFile .advance) : TailOk s.advance := by
  unfold FindsItsFile at hfinds
  unfold advance
  rw [hphase] at hfinds ⊢
  cases hactive : s.disk.active with
  | none =>
    rw [hactive] at hfinds
    exact h.activeStat_none hactive hfinds
  | some ino =>
    rw [hactive] at hfinds
    dsimp only at hfinds ⊢
    split
    · rename_i hinode
      exact h.settle_first hactive hinode (hfinds hinode)
    · rename_i prevInode hinode
      split
      · obtain ⟨k, hat⟩ := h.at hinode
        have hcreated := h.shape.active ino hactive
        have hlt := hat.lt
        refine h.waits ?_
        exact ⟨hinode, by omega, _, h.seen_active hactive⟩
      · rename_i heq
        rw [not_not] at heq
        subst heq
        exact h.settle_known hactive hinode

theorem TailOk.tailStat {prevInode : ℕ} (hphase : s.phase = .tailStat prevInode ino size)
    (hfinds : s.FindsItsFile .advance) : TailOk s.advance := by
  have hok := h.phase
  unfold PhaseOk at hok
  unfold FindsItsFile at hfinds
  unfold advance
  rw [hphase] at hok hfinds ⊢
  obtain ⟨hinode, hlt, m, hseen⟩ := hok
  obtain ⟨k, hat⟩ := h.at hinode
  have hrotated := hfinds.trans hinode
  rw [hrotated]
  dsimp only
  -- the rotated file is the last but one
  have hnext : ino = prevInode + 1 := by
    have hle := hseen.lt
    rcases h.shape.rotated prevInode hrotated with ⟨-, hcreated⟩ | hactive
    · omega
    · have hcreated := h.shape.active _ hactive
      omega
  subst hnext
  split
  · rename_i hread
    simp only [ne_eq, not_true_eq_false, decide_false, Bool.false_or, decide_eq_true_eq] at hread
    have hall := hat.all hread
    subst hall
    exact h.settle_fresh hat hseen
  · rename_i hunread
    simp only [ne_eq, not_true_eq_false, decide_false, Bool.false_or, decide_eq_true_eq] at hunread
    refine h.waits ?_
    have hlength : s.offset + (s.disk.size prevInode - s.offset) = s.disk.size prevInode := by omega
    exact ⟨prevInode, hinode, rfl, rfl, hlength, m, hseen⟩

theorem TailOk.tailOpen (hphase : s.phase = .tailOpen ino size start length)
    (hfinds : s.FindsItsFile .advance) : TailOk s.advance := by
  have hok := h.phase
  unfold PhaseOk at hok
  unfold FindsItsFile at hfinds
  unfold advance
  rw [hphase] at hok hfinds ⊢
  obtain ⟨prevInode, hinode, rfl, hstart, hlength, hseen⟩ := hok
  rw [hfinds.trans hinode]
  refine h.waits ?_
  exact ⟨hinode, rfl, hstart, hlength, hseen⟩

theorem TailOk.tailRead {handle : ℕ} (hphase : s.phase = .tailRead handle ino size start length) : TailOk s.advance := by
  have hok := h.phase
  unfold PhaseOk at hok
  unfold advance
  rw [hphase] at hok ⊢
  dsimp only at hok ⊢
  obtain ⟨hinode, rfl, hstart, hlength, m, hseen⟩ := hok
  obtain ⟨k, hat⟩ := h.at hinode
  have hfile : s.disk.size handle = bytesLength ((s.disk.files handle).take (s.disk.files handle).length) := by
    rw [List.take_length]
    rfl
  have hrange : length = bytesLength ((s.disk.files handle).take (s.disk.files handle).length) -
      bytesLength ((s.disk.files handle).take k) := by
    rw [← hat.offset]
    omega
  rw [hrange, hstart, hat.offset, inject_range hat.le]
  refine settle_ok h.shape h.present hseen (Nat.zero_le m) rfl ?_
  change s.injected ++ _ = (s.disk.before (handle + 1) ++ []).map JsonRecord.text
  rw [hat.injected, ← List.map_append, List.append_assoc, ← take_eq_append hat.le, List.take_length, List.append_nil,
    HookDisk.before_succ]

theorem TailOk.activeOpen (hphase : s.phase = .activeOpen start length)
    (hfinds : s.FindsItsFile .advance) : TailOk s.advance := by
  have hok := h.phase
  unfold PhaseOk at hok
  unfold FindsItsFile at hfinds
  unfold advance
  rw [hphase] at hok hfinds ⊢
  obtain ⟨ino, m, hinode, hstart, hseen⟩ := hok
  rw [hfinds.trans hinode]
  refine h.waits ?_
  exact ⟨hinode, hstart, m, hseen⟩

theorem TailOk.activeRead {handle : ℕ} (hphase : s.phase = .activeRead handle start length) : TailOk s.advance := by
  have hok := h.phase
  unfold PhaseOk at hok
  unfold advance
  rw [hphase] at hok ⊢
  dsimp only at hok ⊢
  obtain ⟨hinode, hstart, m, hseen⟩ := hok
  obtain ⟨k, hat⟩ := h.at hinode
  have hsize := hseen.size
  have hkm : k ≤ m := by
    refine le_of_bytesLength_le hat.le ?_
    rw [← hat.offset]
    omega
  have hrange : length = bytesLength ((s.disk.files handle).take m) - bytesLength ((s.disk.files handle).take k) := by
    rw [← hat.offset]
    omega
  have hconsumed : s.offset + bytesLength (((s.disk.files handle).take m).drop k) =
      bytesLength ((s.disk.files handle).take m) := by
    rw [hat.offset, ← bytesLength_append, ← take_eq_append hkm]
  have hread : s.injected ++ (((s.disk.files handle).take m).drop k).map JsonRecord.text =
      (s.disk.before handle ++ (s.disk.files handle).take m).map JsonRecord.text := by
    rw [hat.injected, ← List.map_append, List.append_assoc, ← take_eq_append hkm]
  have hafter : At { s with
      injected := s.injected ++ (((s.disk.files handle).take m).drop k).map JsonRecord.text
      offset := s.offset + bytesLength (((s.disk.files handle).take m).drop k)
      phase := .idle } handle m := ⟨hinode, hseen.lt, hseen.le, hconsumed, hread⟩
  rw [hrange, hstart, hat.offset, inject_range hkm, HookDisk.readFileRange_eq hkm, Utf8.decode_encode,
    splitHookRecords_lines]
  rw [List.take_length, ← hat.offset]
  exact ⟨h.shape, h.present, .inr ⟨handle, m, hafter⟩, length_le_injected hafter hseen.present⟩

theorem TailOk.step {e : Event} (hfinds : s.FindsItsFile e) (hstep : s.step e = some s') : TailOk s' := by
  cases e with
  | create =>
    unfold HookTail.step at hstep
    cases hactive : s.disk.active with
    | none =>
      rw [hactive] at hstep
      cases hstep
      exact h.create hactive
    | some ino =>
      rw [hactive] at hstep
      cases hstep
      exact h
  | append record =>
    obtain ⟨ino, hactive, rfl⟩ := Option.map_eq_some_iff.1 hstep
    exact h.append hactive record
  | rotate =>
    unfold HookTail.step at hstep
    cases hactive : s.disk.active with
    | none =>
      rw [hactive] at hstep
      cases hstep
    | some ino =>
      rw [hactive] at hstep
      dsimp only at hstep
      split at hstep
      · cases hstep
      · cases hstep
        exact h.rotate hactive
  | begin =>
    cases hstep
    split
    · refine ⟨h.shape, List.prefix_rfl, ?_, trivial⟩
      rcases h.position with hnone | ⟨ino, k, hat⟩
      · exact .inl hnone
      · exact .inr ⟨ino, k, hat.inode, hat.lt, hat.le, hat.offset, hat.injected⟩
    · exact h
  | advance =>
    unfold HookTail.step at hstep
    dsimp only at hstep
    split at hstep
    · cases hstep
    rename_i hidle
    cases hstep
    cases hphase : s.phase with
    | idle => exact absurd hphase hidle
    | activeStat => exact h.activeStat hphase hfinds
    | tailStat prevInode ino size => exact h.tailStat hphase hfinds
    | tailOpen ino size start length => exact h.tailOpen hphase hfinds
    | tailRead handle ino size start length => exact h.tailRead hphase
    | activeOpen start length => exact h.activeOpen hphase hfinds
    | activeRead handle start length => exact h.activeRead hphase

end

theorem TailOk.initial : TailOk .initial := by
  refine ⟨⟨nofun, nofun, ?_, fun _ _ => rfl⟩, List.prefix_rfl, .inl ⟨rfl, rfl, rfl⟩, le_rfl⟩
  exact fun _ => .inl ⟨rfl, rfl⟩

end HookTail

end Kookr.Server
