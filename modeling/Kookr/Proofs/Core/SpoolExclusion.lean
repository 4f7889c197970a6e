import Kookr.Lib.Exec
import Kookr.Lib.ListAt
import Kookr.Spec.Core.SpoolLock

/-! One caller holds the spool lock, and its claim is there. A caller that has begun to list the directory accounts for
the claim of every other one that it may not have overtaken: the claim is among the names it has yet to check, or it has
found the lock busy. -/

namespace Kookr.Core

open Kookr.Lib Option OrderedMap Nat

namespace SpoolStage

/-- The claim that stands for the caller. -/
def claim : SpoolStage → Option ℕ
  | published claim | listing claim _ | checking claim _ _ | probing claim _ _ _ _ | removing claim _ _ _ | withdrawing claim | holding claim
  | releasing claim => some claim
  | locked | waiting | unlocking | done => none

/-- The caller has begun to list the directory, and has not withdrawn. -/
def inspects : SpoolStage → Bool
  | listing _ _ | checking _ _ _ | probing _ _ _ _ _ | removing _ _ _ _ | holding _ => true
  | locked | published _ | withdrawing _ | waiting | releasing _ | unlocking | done => false

/-- The claim of that name is still to be checked, or the lock was found busy. -/
def accounts (name : ℕ) : SpoolStage → Prop
  | listing _ existing => name ∈ existing
  | checking _ names busy | removing _ _ names busy => busy ∨ name ∈ names
  | probing _ probed _ names busy => busy ∨ name = probed ∨ name ∈ names
  | _ => False

end SpoolStage

namespace SpoolLock

variable {s s' : SpoolLock} {c : ℕ} {caller : SpoolCaller} {e : SpoolEvent} {stage : SpoolStage} {processes : List SpoolProcess}
  {name process : ℕ} {names : List ℕ}

/-- The pid and the generation of a process that lives. -/
def identity (processes : List SpoolProcess) (process : ℕ) : Option SpoolLockHolder :=
  (processes[process]?).bind fun p => if p.alive then some ⟨p.pid, p.generation⟩ else none

def Owns (s : SpoolLock) (name process : ℕ) : Prop := ∃ (c : ℕ) (caller : SpoolCaller), s.callers[c]? = some caller ∧ caller.stage.claim = some name ∧ caller.process = process

/-- What a caller has read is true of the claims that have an owner. -/
def Fits (s : SpoolLock) : SpoolStage → Prop
  | .listing _ names | .checking _ names _ => ∀ name ∈ names, name < s.published
  | .probing _ name holder names _ => name < s.published ∧ (∀ process, s.Owns name process → identity s.processes process = some holder) ∧
      ∀ name ∈ names, name < s.published
  | .removing _ name names _ => name < s.published ∧ (∀ process, ¬ s.Owns name process) ∧ ∀ name ∈ names, name < s.published
  | _ => True

structure Guarded (s : SpoolLock) : Prop where
  alive : ∀ (c : ℕ) (caller : SpoolCaller), s.callers[c]? = some caller → caller.stage ≠ .done → (identity s.processes caller.process).isSome
  claimed : ∀ name process, s.Owns name process → s.claims.get name = identity s.processes process
  old : ∀ name, s.claims.has name → name < s.published
  distinct : ∀ (a b : ℕ) (ca cb : SpoolCaller) (name : ℕ), s.callers[a]? = some ca → s.callers[b]? = some cb →
    ca.stage.claim = some name → cb.stage.claim = some name → a = b
  fits : ∀ (c : ℕ) (caller : SpoolCaller), s.callers[c]? = some caller → s.Fits caller.stage
  seen : ∀ (a b : ℕ) (ca cb : SpoolCaller) (n m : ℕ), s.callers[a]? = some ca → s.callers[b]? = some cb → a ≠ b →
    ca.stage.inspects → cb.stage.inspects → ca.stage.claim = some n → cb.stage.claim = some m → ca.stage.accounts m ∨ cb.stage.accounts n

theorem Fits.mono (h : s.Fits stage) (hpublished : s.published ≤ s'.published)
    (howns : ∀ name process, name < s.published → s'.Owns name process → s.Owns name process)
    (hidentity : ∀ name process, s'.Owns name process → identity s'.processes process = identity s.processes process) : s'.Fits stage := by
  cases stage with
  | listing claim names | checking claim names busy => exact fun name hname => lt_of_lt_of_le (h name hname) hpublished
  | probing claim name holder names busy =>
    obtain ⟨hlt, howner, hnames⟩ := h
    refine ⟨lt_of_lt_of_le hlt hpublished, fun process hprocess => ?_, fun name hname => lt_of_lt_of_le (hnames name hname) hpublished⟩
    rw [hidentity name process hprocess]
    exact howner process (howns name process hlt hprocess)
  | removing claim name names busy =>
    obtain ⟨hlt, hfree, hnames⟩ := h
    exact ⟨lt_of_lt_of_le hlt hpublished, fun process hprocess => hfree process (howns name process hlt hprocess),
      fun name hname => lt_of_lt_of_le (hnames name hname) hpublished⟩
  | _ => trivial

theorem isSpoolClaimLive_of_identity {process : ℕ} {holder : SpoolLockHolder} (h : identity s.processes process = some holder) :
    s.isSpoolClaimLive holder := by
  obtain ⟨p, hp, hholder⟩ := bind_eq_some_iff.1 h
  split_ifs at hholder with halive
  cases hholder
  exact List.any_eq_true.2 ⟨p, List.mem_of_getElem? hp, by simp [halive]⟩

section

variable (h : Guarded s)
include h

theorem Guarded.owned_lt (howns : s.Owns name process) : name < s.published := by
  obtain ⟨c, caller, hc, hclaim, rfl⟩ := howns
  have hnotDone : caller.stage ≠ .done := by
    intro hdone
    rw [hdone] at hclaim
    cases hclaim
  have hget := h.claimed name caller.process ⟨c, caller, hc, hclaim, rfl⟩
  refine h.old name ?_
  rw [has, hget]
  exact h.alive c caller hc hnotDone

theorem Guarded.move (hc : s.callers[c]? = some caller) (hrunning : caller.stage ≠ .done)
    (hidentity : ∀ process, identity processes process = identity s.processes process)
    {claims : OrderedMap ℕ SpoolLockHolder} {published : ℕ} (hpublished : s.published ≤ published)
    (hclaim : stage.claim = caller.stage.claim ∨ stage.claim = none ∨ stage.claim = some s.published ∧ s.published < published)
    (hclaims : ∀ name process, Owns ⟨processes, s.callers.set c { caller with stage }, claims, published⟩ name process →
      claims.get name = identity s.processes process) (hold : ∀ name, claims.has name → name < published)
    (hfits : Fits ⟨processes, s.callers.set c { caller with stage }, claims, published⟩ stage)
    (hseen : stage.inspects → ∀ (d : ℕ) (other : SpoolCaller) (n m : ℕ), s.callers[d]? = some other → d ≠ c → other.stage.inspects →
      stage.claim = some n → other.stage.claim = some m → stage.accounts m ∨ other.stage.accounts n) :
    Guarded ⟨processes, s.callers.set c { caller with stage }, claims, published⟩ := by
  -- the claim of the caller that moves is its old one or a new one
  have hown : ∀ {name : ℕ}, stage.claim = some name → caller.stage.claim = some name ∨ s.published ≤ name := by
    intro name hname
    rcases hclaim with heq | hnone | ⟨hnew, -⟩
    · exact .inl (heq ▸ hname)
    · rw [hnone] at hname
      cases hname
    · rw [hnew] at hname
      exact .inr (le_of_eq (some.inj hname))
  have hothers : ∀ {name d : ℕ} {other : SpoolCaller}, s.callers[d]? = some other → d ≠ c → stage.claim = some name → other.stage.claim ≠ some name := by
    intro name d other hd hne hname hother
    rcases hown hname with hsame | hfresh
    · exact hne (h.distinct d c other caller name hd hc hother hsame)
    · exact absurd (h.owned_lt ⟨d, other, hd, hother, rfl⟩) (not_lt.2 hfresh)
  constructor
  · intro d other hd hnotDone
    rw [hidentity]
    rcases getElem?_set_cases hd with ⟨rfl, rfl⟩ | ⟨-, hd⟩
    · exact h.alive d caller hc hrunning
    · exact h.alive d other hd hnotDone
  · intro name process howns
    rw [hidentity]
    exact hclaims name process howns
  · exact hold
  · intro a b ca cb name ha hb hca hcb
    rcases getElem?_set_cases ha with ⟨rfl, rfl⟩ | ⟨hac, ha'⟩ <;> rcases getElem?_set_cases hb with ⟨rfl, rfl⟩ | ⟨hbc, hb'⟩
    · rfl
    · exact absurd hcb (hothers hb' hbc hca)
    · exact absurd hca (hothers ha' hac hcb)
    · exact h.distinct a b ca cb name ha' hb' hca hcb
  · intro d other hd
    rcases getElem?_set_cases hd with ⟨rfl, rfl⟩ | ⟨-, hd⟩
    · exact hfits
    · refine (h.fits d other hd).mono hpublished (fun name process hlt => ?_) fun name process _ => hidentity process
      rintro ⟨d', other', hd', hname, rfl⟩
      rcases getElem?_set_cases hd' with ⟨rfl, rfl⟩ | ⟨-, hd'⟩
      · rcases hown hname with hsame | hfresh
        · exact ⟨d', caller, hc, hsame, rfl⟩
        · exact absurd hlt (not_lt.2 hfresh)
      · exact ⟨d', other', hd', hname, rfl⟩
  · intro a b ca cb n m ha hb hab hia hib hca hcb
    rcases getElem?_set_cases ha with ⟨rfl, rfl⟩ | ⟨hac, ha'⟩ <;> rcases getElem?_set_cases hb with ⟨rfl, rfl⟩ | ⟨hbc, hb'⟩
    · exact absurd rfl hab
    · exact hseen hia b cb n m hb' hbc hib hca hcb
    · exact (hseen hib a ca m n ha' hac hia hcb hca).symm
    · exact h.seen a b ca cb n m ha' hb' hab hia hib hca hcb

theorem Guarded.on_disk {name : ℕ} (hc : s.callers[c]? = some caller) (hclaim : caller.stage.claim = some name) :
    ∃ holder, identity s.processes caller.process = some holder ∧ s.claims.get name = some holder := by
  have hnotDone : caller.stage ≠ .done := by
    intro hdone
    rw [hdone] at hclaim
    cases hclaim
  obtain ⟨holder, hholder⟩ := isSome_iff_exists.1 (h.alive c caller hc hnotDone)
  exact ⟨holder, hholder, (h.claimed name caller.process ⟨c, caller, hc, hclaim, rfl⟩).trans hholder⟩

theorem Guarded.has (howns : s.Owns name process) : s.claims.has name := by
  obtain ⟨d, other, hd, hclaim, -⟩ := howns
  obtain ⟨holder, -, hget⟩ := h.on_disk hd hclaim
  rw [OrderedMap.has, hget]
  rfl

omit h in
/-- Nobody gets a claim by moving on with the one there was, or without one. -/
theorem owns_of_moved {claims : OrderedMap ℕ SpoolLockHolder} {published name process : ℕ}
    (hc : s.callers[c]? = some caller) (hclaim : stage.claim = caller.stage.claim ∨ stage.claim = none)
    (howns : Owns ⟨processes, s.callers.set c { caller with stage }, claims, published⟩ name process) : s.Owns name process := by
  obtain ⟨d, other, hd, hname, rfl⟩ := howns
  rcases getElem?_set_cases hd with ⟨rfl, rfl⟩ | ⟨-, hd⟩
  · rcases hclaim with hsame | hnone
    · exact ⟨d, caller, hc, hsame ▸ hname, rfl⟩
    · rw [hnone] at hname
      cases hname
  · exact ⟨d, other, hd, hname, rfl⟩

omit h in
theorem fits_of_not_inspects (h : stage.inspects = false) : s.Fits stage := by
  cases stage with
  | listing | checking | probing | removing => cases h
  | _ => trivial

/-- The caller goes on with its claim, or without one, and the directory stays as it is. -/
theorem Guarded.goto (hc : s.callers[c]? = some caller) (hrunning : caller.stage ≠ .done)
    (hidentity : ∀ process, identity processes process = identity s.processes process)
    (hclaim : stage.claim = caller.stage.claim ∨ stage.claim = none) (hfits : s.Fits stage)
    (hseen : stage.inspects → ∀ (d : ℕ) (other : SpoolCaller) (n m : ℕ), s.callers[d]? = some other → d ≠ c → other.stage.inspects →
      stage.claim = some n → other.stage.claim = some m → stage.accounts m ∨ other.stage.accounts n) :
    Guarded ⟨processes, s.callers.set c { caller with stage }, s.claims, s.published⟩ := by
  refine h.move hc hrunning hidentity (le_refl _) (hclaim.imp_right .inl) (fun name process howns => ?_) h.old ?_ hseen
  · exact h.claimed name process (owns_of_moved hc hclaim howns)
  · exact hfits.mono (le_refl _) (fun name process _ => owns_of_moved hc hclaim) fun name process _ => hidentity process

theorem Guarded.leave (hc : s.callers[c]? = some caller) (hrunning : caller.stage ≠ .done)
    (hidentity : ∀ process, identity processes process = identity s.processes process)
    (hclaim : stage.claim = caller.stage.claim ∨ stage.claim = none) (hleaves : stage.inspects = false) :
    Guarded ⟨processes, s.callers.set c { caller with stage }, s.claims, s.published⟩ :=
  h.goto hc hrunning hidentity hclaim (fits_of_not_inspects hleaves) fun hinspects => by rw [hleaves] at hinspects; cases hinspects

theorem Guarded.inspect (hc : s.callers[c]? = some caller) (hinspects : caller.stage.inspects)
    (hclaim : stage.claim = caller.stage.claim) (hfits : s.Fits stage)
    (haccounts : ∀ (d : ℕ) (other : SpoolCaller) (m : ℕ), s.callers[d]? = some other → d ≠ c → other.stage.claim = some m →
      caller.stage.accounts m → stage.accounts m) : Guarded (s.goto c caller stage) := by
  have hrunning : caller.stage ≠ .done := by
    intro hdone
    rw [hdone] at hinspects
    cases hinspects
  refine h.goto hc hrunning (fun _ => rfl) (.inl hclaim) hfits fun _ d other n m hd hne hother hn hm => ?_
  exact (h.seen c d caller other n m hc hd hne.symm hinspects hother (hclaim ▸ hn) hm).imp_left (haccounts d other m hd hne hm)

theorem Guarded.publish (hc : s.callers[c]? = some caller) (hstage : caller.stage = .locked) (hstep : s.publish c caller = some s') :
    Guarded s' := by
  obtain ⟨p, hp, rfl⟩ := map_eq_some_iff.1 hstep
  have hrunning : caller.stage ≠ .done := by simp [hstage]
  have hidentity : identity s.processes caller.process = some ⟨p.pid, p.generation⟩ := by
    have halive := h.alive c caller hc hrunning
    simp only [identity, hp, bind_some] at halive ⊢
    split_ifs at halive ⊢
    · rfl
    · cases halive
  refine h.move hc hrunning (fun _ => rfl) (le_succ _) (.inr (.inr ⟨rfl, lt_succ_self _⟩)) (fun name process howns => ?_) (fun name hname => ?_)
    trivial nofun
  · obtain ⟨d, other, hd, hname, rfl⟩ := howns
    rcases getElem?_set_cases hd with ⟨rfl, rfl⟩ | ⟨-, hd⟩
    · cases hname
      exact (get_set_self _ _ _).trans hidentity.symm
    · have howned : s.Owns name other.process := ⟨d, other, hd, hname, rfl⟩
      rw [get_set_of_ne _ _ (ne_of_gt (h.owned_lt howned))]
      exact h.claimed name other.process howned
  · by_cases hnew : s.published = name
    · exact hnew ▸ lt_succ_self _
    · refine lt_succ_of_lt (h.old name ?_)
      rwa [OrderedMap.has, OrderedMap.get_set_of_ne _ _ hnew] at hname

theorem Guarded.erase (hc : s.callers[c]? = some caller) (hrunning : caller.stage ≠ .done) {name : ℕ}
    (hclaim : stage.claim = caller.stage.claim ∨ stage.claim = none) (hfits : s.Fits stage)
    (hfree : ∀ process, ¬ ((s.remove name).goto c caller stage).Owns name process)
    (hseen : stage.inspects → ∀ (d : ℕ) (other : SpoolCaller) (n m : ℕ), s.callers[d]? = some other → d ≠ c → other.stage.inspects →
      stage.claim = some n → other.stage.claim = some m → stage.accounts m ∨ other.stage.accounts n) :
    Guarded ((s.remove name).goto c caller stage) := by
  refine h.move hc hrunning (fun _ => rfl) (le_refl _) (hclaim.imp_right .inl) (fun name' process howns => ?_) (fun name' hname => ?_) ?_ hseen
  · have hne : name ≠ name' := by
      rintro rfl
      exact hfree process howns
    rw [remove, get_delete, if_neg hne]
    exact h.claimed name' process (owns_of_moved hc hclaim howns)
  · refine h.old name' ?_
    unfold OrderedMap.has at hname ⊢
    rw [remove, get_delete] at hname
    split_ifs at hname
    · cases hname
    · exact hname
  · exact hfits.mono (le_refl _) (fun name process _ => owns_of_moved hc hclaim) fun name process _ => rfl

theorem Guarded.drop (hc : s.callers[c]? = some caller) {name : ℕ} (hname : caller.stage.claim = some name)
    (hclaim : stage.claim = none) (hleaves : stage.inspects = false) : Guarded ((s.remove name).goto c caller stage) := by
  have hrunning : caller.stage ≠ .done := by
    intro hdone
    rw [hdone] at hname
    cases hname
  refine h.erase hc hrunning (.inr hclaim) (fits_of_not_inspects hleaves) ?_ fun hinspects => by rw [hleaves] at hinspects; cases hinspects
  rintro process ⟨d, other, hd, hother, -⟩
  rcases getElem?_set_cases hd with ⟨rfl, rfl⟩ | ⟨hne, hd⟩
  · rw [hclaim] at hother
    cases hother
  · exact hne (h.distinct d c other caller name hd hc hother hname)

omit h in
theorem identity_setLocal (s : SpoolLock) (process : ℕ) (held : Bool) (p : ℕ) : identity (s.setLocal process held).processes p = identity s.processes p := by
  simp only [identity, setLocal, List.getElem?_modify, map_eq_map, bind_map]
  refine congrArg (Option.bind _) (funext fun found => ?_)
  simp only [Function.comp_apply]
  split_ifs <;> rfl

theorem Guarded.join {process : ℕ} (hstep : s.acquireLocal process = some s') : Guarded s' := by
  obtain ⟨p, hp, hstep⟩ := bind_eq_some_iff.1 hstep
  split_ifs at hstep with hfree
  cases hstep
  have halive : (identity s.processes process).isSome := by
    rw [Bool.and_eq_true] at hfree
    simp [identity, hp, hfree.1]
  have howns : ∀ {name process' : ℕ}, Owns { s.setLocal process true with callers := s.callers ++ [⟨process, .locked⟩] } name process' → s.Owns name process' := by
    rintro name process' ⟨d, other, hd, hname, rfl⟩
    rcases getElem?_concat_cases hd with ⟨rfl, rfl⟩ | hd
    · cases hname
    · exact ⟨d, other, hd, hname, rfl⟩
  constructor
  · intro d other hd hnotDone
    refine (congrArg isSome (identity_setLocal s process true _)).trans ?_
    rcases getElem?_concat_cases hd with ⟨rfl, rfl⟩ | hd
    · exact halive
    · exact h.alive d other hd hnotDone
  · exact fun name process' hname => (h.claimed name process' (howns hname)).trans (identity_setLocal s process true _).symm
  · exact h.old
  · intro a b ca cb name ha hb hca hcb
    rcases getElem?_concat_cases ha with ⟨rfl, rfl⟩ | ha
    · cases hca
    rcases getElem?_concat_cases hb with ⟨rfl, rfl⟩ | hb
    · cases hcb
    exact h.distinct a b ca cb name ha hb hca hcb
  · intro d other hd
    rcases getElem?_concat_cases hd with ⟨rfl, rfl⟩ | hd
    · trivial
    · exact (h.fits d other hd).mono (le_refl _) (fun _ _ _ => howns) fun _ _ _ => identity_setLocal s process true _
  · intro a b ca cb n m ha hb hab hia hib hca hcb
    rcases getElem?_concat_cases ha with ⟨rfl, rfl⟩ | ha
    · cases hca
    rcases getElem?_concat_cases hb with ⟨rfl, rfl⟩ | hb
    · cases hcb
    exact h.seen a b ca cb n m ha hb hab hia hib hca hcb

omit h in
theorem identity_append {process : ℕ} (h : (identity processes process).isSome) (p : SpoolProcess) :
    identity (processes ++ [p]) process = identity processes process := by
  have hlt : process < processes.length := by
    by_contra hnot
    simp [identity, List.getElem?_eq_none (not_lt.1 hnot)] at h
  rw [identity, List.getElem?_append_left hlt]
  rfl

theorem Guarded.owner_alive (howns : s.Owns name process) : (identity s.processes process).isSome := by
  rw [← h.claimed name process howns]
  exact h.has howns

theorem Guarded.spawn (p : SpoolProcess) : Guarded { s with processes := s.processes ++ [p] } where
  alive c caller hc hnotDone := by
    have halive := h.alive c caller hc hnotDone
    rwa [identity_append halive]
  claimed name process howns := by
    rw [identity_append (h.owner_alive howns)]
    exact h.claimed name process howns
  old := h.old
  distinct := h.distinct
  fits c caller hc := (h.fits c caller hc).mono (le_refl _) (fun _ _ _ howns => howns) fun _ _ howns => identity_append (h.owner_alive howns) p
  seen := h.seen

omit h in
theorem identity_crash {process p : ℕ} (hne : p ≠ process) : identity (s.crash process).processes p = identity s.processes p := by
  simp only [identity, crash, List.getElem?_modify, if_neg (Ne.symm hne), map_eq_map, map_id']

omit h in
theorem crash_callers {process d : ℕ} {other : SpoolCaller} (hd : (s.crash process).callers[d]? = some other) (hnotDone : other.stage ≠ .done) :
    s.callers[d]? = some other ∧ other.process ≠ process := by
  simp only [crash, List.getElem?_map] at hd
  obtain ⟨before, hbefore, rfl⟩ := map_eq_some_iff.1 hd
  split_ifs at hnotDone ⊢ with heq
  · exact absurd rfl hnotDone
  · exact ⟨hbefore, heq⟩

omit h in
theorem ne_done_of_claim {name : ℕ} (h : stage.claim = some name) : stage ≠ .done := by
  rintro rfl
  cases h

theorem Guarded.crash (process : ℕ) : Guarded (s.crash process) := by
  have howns : ∀ {name p : ℕ}, (s.crash process).Owns name p → s.Owns name p ∧ p ≠ process := by
    rintro name p ⟨d, other, hd, hname, rfl⟩
    obtain ⟨hbefore, hne⟩ := crash_callers hd (ne_done_of_claim hname)
    exact ⟨⟨d, other, hbefore, hname, rfl⟩, hne⟩
  constructor
  · intro d other hd hnotDone
    obtain ⟨hbefore, hne⟩ := crash_callers hd hnotDone
    rw [identity_crash hne]
    exact h.alive d other hbefore hnotDone
  · intro name p hname
    rw [identity_crash (howns hname).2]
    exact h.claimed name p (howns hname).1
  · exact h.old
  · intro a b ca cb name ha hb hca hcb
    exact h.distinct a b ca cb name (crash_callers ha (ne_done_of_claim hca)).1 (crash_callers hb (ne_done_of_claim hcb)).1 hca hcb
  · intro d other hd
    by_cases hdone : other.stage = .done
    · rw [hdone]
      trivial
    · exact (h.fits d other (crash_callers hd hdone).1).mono (le_refl _) (fun _ _ _ hname => (howns hname).1) fun _ _ hname => identity_crash (howns hname).2
  · intro a b ca cb n m ha hb hab hia hib hca hcb
    exact h.seen a b ca cb n m (crash_callers ha (ne_done_of_claim hca)).1 (crash_callers hb (ne_done_of_claim hcb)).1 hab hia hib hca hcb

/-- The listing has the claims of the others that were there at its start, for they are still there. -/
theorem Guarded.endListing (hc : s.callers[c]? = some caller) {claim : ℕ} {existing names : List ℕ}
    (hstage : caller.stage = .listing claim existing) (hstep : s.endListing c caller claim existing names = some s') : Guarded s' := by
  unfold SpoolLock.endListing at hstep
  split_ifs at hstep with hlisted
  cases hstep
  refine h.inspect hc (by simp [hstage, SpoolStage.inspects]) (by simp [hstage, SpoolStage.claim]) hlisted.2 fun d other m hd _ hm haccounts => ?_
  rw [hstage] at haccounts
  exact .inr (hlisted.1 m haccounts (h.has ⟨d, other, hd, hm, rfl⟩))

theorem Guarded.readlink (hc : s.callers[c]? = some caller) {claim name : ℕ} {busy : Bool}
    (hstage : caller.stage = .checking claim (name :: names) busy) : Guarded (s.readlink c caller claim name names busy) := by
  have hinspects : caller.stage.inspects := by simp [hstage, SpoolStage.inspects]
  have hclaim : caller.stage.claim = some claim := by simp [hstage, SpoolStage.claim]
  have hfits := h.fits c caller hc
  rw [hstage] at hfits
  have hname : name < s.published := hfits name List.mem_cons_self
  have hnames : ∀ name ∈ names, name < s.published := fun name hmem => hfits name (List.mem_cons_of_mem _ hmem)
  unfold SpoolLock.readlink
  split_ifs with hown
  · refine h.inspect hc hinspects hclaim.symm hnames fun d other m hd hne hm haccounts => ?_
    have hother : m ≠ name := by
      rintro rfl
      exact hne (h.distinct d c other caller m hd hc hm (hown ▸ hclaim))
    rw [hstage] at haccounts
    exact haccounts.imp_right fun hmem => (List.mem_cons.1 hmem).resolve_left hother
  · cases hget : s.claims.get name with
    | none =>
      have hfree : ∀ process, ¬ s.Owns name process := by
        intro process howns
        have hhas := h.has howns
        rw [OrderedMap.has, hget] at hhas
        cases hhas
      refine h.inspect hc hinspects hclaim.symm ⟨hname, hfree, hnames⟩ fun d other m hd _ hm haccounts => ?_
      rw [hstage] at haccounts
      refine haccounts.imp_right fun hmem => (List.mem_cons.1 hmem).resolve_left ?_
      rintro rfl
      exact hfree other.process ⟨d, other, hd, hm, rfl⟩
    | some holder =>
      refine h.inspect hc hinspects hclaim.symm ⟨hname, fun process howns => ?_, hnames⟩ fun d other m _ _ _ haccounts => ?_
      · rw [← h.claimed name process howns, hget]
      · rw [hstage] at haccounts
        exact haccounts.imp_right List.mem_cons.1

theorem Guarded.probed (hc : s.callers[c]? = some caller) {claim name : ℕ} {holder : SpoolLockHolder} {busy live : Bool}
    (hstage : caller.stage = .probing claim name holder names busy) (hstep : s.probed c caller claim name holder names busy live = some s') :
    Guarded s' := by
  have hinspects : caller.stage.inspects := by simp [hstage, SpoolStage.inspects]
  have hclaim : caller.stage.claim = some claim := by simp [hstage, SpoolStage.claim]
  have hfits := h.fits c caller hc
  rw [hstage] at hfits
  obtain ⟨hname, howner, hnames⟩ := hfits
  unfold SpoolLock.probed at hstep
  split_ifs at hstep with hlive hholder
  · cases hstep
    exact h.inspect hc hinspects hclaim.symm hnames fun _ _ _ _ _ _ _ => .inl rfl
  · cases hstep
    have hfree : ∀ process, ¬ s.Owns name process := fun process howns => hholder (isSpoolClaimLive_of_identity (howner process howns))
    refine h.inspect hc hinspects hclaim.symm ⟨hname, hfree, hnames⟩ fun d other m hd _ hm haccounts => ?_
    rw [hstage] at haccounts
    refine haccounts.imp_right fun hmem => hmem.resolve_left ?_
    rintro rfl
    exact hfree other.process ⟨d, other, hd, hm, rfl⟩

theorem Guarded.remove (hc : s.callers[c]? = some caller) {claim name : ℕ} {busy : Bool}
    (hstage : caller.stage = .removing claim name names busy) : Guarded ((s.remove name).goto c caller (.checking claim names busy)) := by
  have hclaim : caller.stage.claim = some claim := by simp [hstage, SpoolStage.claim]
  have hfits := h.fits c caller hc
  rw [hstage] at hfits
  obtain ⟨-, hfree, hnames⟩ := hfits
  have hsame : (SpoolStage.checking claim names busy).claim = caller.stage.claim := hclaim.symm
  refine h.erase hc (by simp [hstage]) (.inl hsame) hnames (fun process howns => ?_) fun _ d other n m hd hne hother hn hm => ?_
  · exact hfree process (owns_of_moved hc (.inl hsame) howns)
  · have hseen := h.seen c d caller other n m hc hd hne.symm (by simp [hstage, SpoolStage.inspects]) hother (hclaim.trans hn) hm
    rwa [hstage] at hseen

/-- The listing starts with every claim that is there, so with those of the others that inspect. -/
theorem Guarded.startListing (hc : s.callers[c]? = some caller) {claim : ℕ} (hstage : caller.stage = .published claim) :
    Guarded (s.goto c caller (.listing claim s.claims.keys)) := by
  refine h.goto hc (by simp [hstage]) (fun _ => rfl) (.inl (by simp [hstage, SpoolStage.claim])) (fun name hname => ?_) fun _ d other n m hd _ _ _ hm => .inl ?_
  · exact h.old name ((get_isSome_iff _ _).2 hname)
  · exact (get_isSome_iff _ _).1 (h.has ⟨d, other, hd, hm, rfl⟩)

theorem Guarded.finish (hc : s.callers[c]? = some caller) {claim : ℕ} {busy : Bool} (hstage : caller.stage = .checking claim [] busy) :
    Guarded (s.goto c caller (if busy then .withdrawing claim else .holding claim)) := by
  cases busy with
  | true => exact h.leave hc (by simp [hstage]) (fun _ => rfl) (.inl (by simp [hstage, SpoolStage.claim])) rfl
  | false =>
    refine h.inspect hc (by simp [hstage, SpoolStage.inspects]) (by simp [hstage, SpoolStage.claim]) trivial fun d other m _ _ _ haccounts => ?_
    rw [hstage] at haccounts
    simp [SpoolStage.accounts] at haccounts

theorem Guarded.step (hstep : step s e = some s') : Guarded s' := by
  cases e with
  | spawn pid generation =>
    cases hstep
    exact h.spawn _
  | crash process =>
    cases hstep
    exact h.crash process
  | acquireLocal process => exact h.join hstep
  | unidentified c | retry c | giveUp c | release c =>
    obtain ⟨caller, hc, hstep⟩ := bind_eq_some_iff.1 hstep
    split at hstep
    · next hstage =>
      cases hstep
      exact h.leave hc (by simp [hstage]) (fun _ => rfl) (by simp [hstage, SpoolStage.claim]) rfl
    · cases hstep
  | publish c =>
    obtain ⟨caller, hc, hstep⟩ := bind_eq_some_iff.1 hstep
    split at hstep
    · next hstage => exact h.publish hc hstage hstep
    · cases hstep
  | startListing c =>
    obtain ⟨caller, hc, hstep⟩ := bind_eq_some_iff.1 hstep
    split at hstep
    · next hstage =>
      cases hstep
      exact h.startListing hc hstage
    · cases hstep
  | endListing c names =>
    obtain ⟨caller, hc, hstep⟩ := bind_eq_some_iff.1 hstep
    split at hstep
    · next hstage => exact h.endListing hc hstage hstep
    · cases hstep
  | readlink c =>
    obtain ⟨caller, hc, hstep⟩ := bind_eq_some_iff.1 hstep
    split at hstep
    · next hstage =>
      cases hstep
      exact h.readlink hc hstage
    · cases hstep
  | probed c live =>
    obtain ⟨caller, hc, hstep⟩ := bind_eq_some_iff.1 hstep
    split at hstep
    · next hstage => exact h.probed hc hstage hstep
    · cases hstep
  | remove c =>
    obtain ⟨caller, hc, hstep⟩ := bind_eq_some_iff.1 hstep
    split at hstep
    · next hstage =>
      cases hstep
      exact h.remove hc hstage
    · cases hstep
  | finish c =>
    obtain ⟨caller, hc, hstep⟩ := bind_eq_some_iff.1 hstep
    split at hstep
    · next hstage =>
      cases hstep
      exact h.finish hc hstage
    · cases hstep
  | withdraw c | removeOwn c =>
    obtain ⟨caller, hc, hstep⟩ := bind_eq_some_iff.1 hstep
    split at hstep
    · next claim hstage =>
      cases hstep
      exact h.drop hc (by simp [hstage, SpoolStage.claim]) rfl rfl
    · cases hstep
  | unlock c =>
    obtain ⟨caller, hc, hstep⟩ := bind_eq_some_iff.1 hstep
    split at hstep
    · next hstage =>
      cases hstep
      exact h.leave hc (by simp [hstage]) (identity_setLocal s caller.process false) (by simp [hstage, SpoolStage.claim]) rfl
    · cases hstep

end

theorem guarded_start : Guarded start := by
  constructor <;> simp [start, Owns, has]

/-- In every run one caller holds the lock at most, and the claim of a caller that holds it has not been removed. -/
theorem spool_lock_exclusive {events : List SpoolEvent} (hrun : exec step start events = some s) :
    (∀ (a b : ℕ) (ca cb : SpoolCaller) (n m : ℕ), s.callers[a]? = some ca → s.callers[b]? = some cb → ca.stage = .holding n → cb.stage = .holding m → a = b) ∧
      ∀ (c : ℕ) (caller : SpoolCaller) (n : ℕ), s.callers[c]? = some caller → caller.stage = .holding n → s.claims.has n := by
  have h : Guarded s := exec_preserves (fun _ _ _ h hstep => h.step hstep) guarded_start hrun
  refine ⟨fun a b ca cb n m ha hb hca hcb => ?_, fun c caller n hc hstage => ?_⟩
  · by_contra hab
    -- neither of the two accounts for the other's claim any more
    have hseen := h.seen a b ca cb n m ha hb hab (by rw [hca]; rfl) (by rw [hcb]; rfl) (by rw [hca]; rfl) (by rw [hcb]; rfl)
    rw [hca, hcb] at hseen
    exact hseen.elim id id
  · exact h.has ⟨c, caller, hc, by rw [hstage]; rfl, rfl⟩

/-- A process has crashed with its claim on disk; of two others that contend, one withdraws and the other takes the lock. -/
def contended : List SpoolEvent :=
  [.spawn 7 "a", .acquireLocal 0, .publish 0, .crash 0, .spawn 8 "b", .spawn 9 "c", .acquireLocal 1, .publish 1, .startListing 1, .acquireLocal 2,
    .publish 2, .endListing 1 [0, 1], .readlink 1, .probed 1 false, .startListing 2, .endListing 2 [0, 1, 2], .readlink 2, .remove 1, .probed 2 false,
    .remove 2, .readlink 2, .probed 2 true, .readlink 2, .finish 2, .withdraw 2, .readlink 1, .finish 1]

theorem spool_lock_exclusive_contended : ∃ s, exec step start contended = some s ∧ s.callers[1]?.map SpoolCaller.stage = some (.holding 1) ∧
    (∀ (a b : ℕ) (ca cb : SpoolCaller) (n m : ℕ), s.callers[a]? = some ca → s.callers[b]? = some cb → ca.stage = .holding n → cb.stage = .holding m → a = b) ∧
      ∀ (c : ℕ) (caller : SpoolCaller) (n : ℕ), s.callers[c]? = some caller → caller.stage = .holding n → s.claims.has n := by
  have hstages : (exec step start contended).map (fun s => s.callers[1]?.map SpoolCaller.stage) = some (some (.holding 1)) := by decide +kernel
  obtain ⟨s, hrun, hstage⟩ := map_eq_some_iff.1 hstages
  exact ⟨s, hrun, hstage, spool_lock_exclusive hrun⟩

end SpoolLock

end Kookr.Core
