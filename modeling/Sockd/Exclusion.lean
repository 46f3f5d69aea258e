import Sockd.Host
import Sockd.Lifecycle

/-!
# Who holds the PID file

Any number of processes claim the same PID file and drop it again, their calls
interleaved in any order. `claim` checks and acts in separate steps, so it does not
exclude two holders (`two_holders`): what it removes may not be the file it looked
at, and the file it looked at may not name its creator yet. Where neither happens
(`Undisturbed`), at most one running process holds the file and none removes that of
another (`guard_exclusive`).

`Claimer` is what a history says about where a process stands in `claim`; the
invariant (`Owned`) is that a process that has made the file and not dropped it is
the one whose file the path names.
-/

namespace Sockd

open Rust Effects Effects.Prog Effects.System PidGuard

variable {S : Type}

/-- The pid that a file with these bytes names. -/
def pidOfBytes (bytes : Bytes) : Option UInt32 := (Bytes.decode? bytes).bind pidOfText

/-! ## Where a process stands -/

/-- What a process has done about the PID file. -/
structure Claimer where
  /-- The file that was last opened and read, and what was in it. -/
  seen : Option (Nat × Bytes) := none
  /-- The pid found dead since then. -/
  dead : Option Int := none
  /-- The files it made. -/
  made : List Nat := []
  /-- How often it removed the path after making a file. -/
  drops : Nat := 0
  /-- What it had seen, and found dead, at each removal before that. -/
  removals : List (Option (Nat × Bytes) × Option Int) := []

namespace Claimer

/-- One more event. -/
def step (m : Claimer) : SysEvent S → Claimer
  | ⟨.openFile _, _⟩ => { m with seen := none, dead := none }
  | ⟨.readFile f, .ok d⟩ => { m with seen := some (f, d), dead := none }
  | ⟨.readFile _, .error _⟩ => { m with seen := none, dead := none }
  | ⟨.kill q, .error errno⟩ => { m with dead := if errno = EPERM then none else some q }
  | ⟨.kill _, .ok _⟩ => { m with dead := none }
  | ⟨.createNew _, .ok f⟩ => { m with made := f :: m.made }
  | ⟨.removeFile _, _⟩ =>
    if m.made = [] then { m with removals := (m.seen, m.dead) :: m.removals }
    else { m with drops := m.drops + 1 }
  | _ => m

/-- After a history. -/
def of (h : History S) : Claimer := h.foldl step {}

/-- A removal is justified by what was seen: nothing, no pid, or a dead one. -/
def Justified (r : Option (Nat × Bytes) × Option Int) : Prop :=
  ∀ f d, r.1 = some (f, d) →
    ∀ pid, pidOfBytes d = some pid → r.2 = some pid.toInt32.toInt

/-- Nothing was made yet. -/
structure Looking (m : Claimer) : Prop where
  made : m.made = []
  drops : m.drops = 0
  removals : ∀ r ∈ m.removals, Justified r

/-- The file was made, and not dropped. -/
structure Making (m : Claimer) : Prop where
  made : ∃ f, m.made = [f]
  drops : m.drops = 0
  removals : ∀ r ∈ m.removals, Justified r

/-- What holds at any time. -/
structure Sound (m : Claimer) : Prop where
  made : m.made = [] ∧ m.drops = 0 ∨ ∃ f, m.made = [f] ∧ m.drops ≤ 1
  removals : ∀ r ∈ m.removals, Justified r

theorem Looking.sound {m : Claimer} (h : m.Looking) : m.Sound :=
  ⟨.inl ⟨h.made, h.drops⟩, h.removals⟩

theorem Making.sound {m : Claimer} (h : m.Making) : m.Sound := by
  obtain ⟨f, hf⟩ := h.made
  exact ⟨.inr ⟨f, hf, by rw [h.drops]; exact Nat.zero_le 1⟩, h.removals⟩

/-- Looking at files keeps one looking. -/
theorem Looking.see {m : Claimer} (h : m.Looking) (seen : Option (Nat × Bytes))
    (dead : Option Int) : Looking { m with seen := seen, dead := dead } :=
  ⟨h.made, h.drops, h.removals⟩

/-- A justified removal. -/
theorem Looking.remove {m : Claimer} (h : m.Looking) (hj : Justified (m.seen, m.dead)) {p : Path}
    (a : Except IoError Unit) : Looking (m.step (S := S) ⟨.removeFile p, a⟩) := by
  have hm : m.step (S := S) ⟨.removeFile p, a⟩ =
      { m with removals := (m.seen, m.dead) :: m.removals } := by
    show (if m.made = [] then _ else _) = _
    rw [if_pos h.made]
  rw [hm]
  refine ⟨h.made, h.drops, fun r hr => ?_⟩
  rcases List.mem_cons.mp hr with rfl | hr
  · exact hj
  · exact h.removals r hr

/-! ## `claim`, whatever the answers -/

section Claim

variable {m : Claimer} {path : Path}

/-- `read_pid`: what it returns is what was seen. -/
theorem readPid_spec (h : m.Looking) :
    Spec step m (readPid path : SysTry S _).run Looking
      (fun r m' => m'.Looking ∧ ∀ pid, r = .ok pid →
        ∀ f d, m'.seen = some (f, d) → pidOfBytes d = pid) := by
  refine Spec.attempt (R := fun r m' => m'.Looking ∧
    (∀ text, r = .ok text → ∀ f d, m'.seen = some (f, d) → Bytes.decode? d = some text) ∧
    ∀ err, r = .error err → err.kind = .notFound → m'.seen = none) ?_ ?_
  · refine Spec.call h fun a => ?_
    have h₁ : Looking (m.step (S := S) ⟨.openFile path, a⟩) := h.see none none
    have hseen : (m.step (S := S) ⟨.openFile path, a⟩).seen = none := rfl
    generalize m.step (S := S) ⟨.openFile path, a⟩ = m₁ at h₁ hseen
    cases a with
    | error err => exact .ret h₁ ⟨h₁, fun _ ht => (by cases ht), fun _ _ _ => hseen⟩
    | ok f =>
      refine Spec.call h₁ fun b => ?_
      cases b with
      | error err =>
        refine .ret (h₁.see none none) ⟨h₁.see none none, fun _ ht => (by cases ht), fun _ _ _ => rfl⟩
      | ok d =>
        have h₂ : Looking (m₁.step (S := S) ⟨.readFile f, .ok d⟩) := h₁.see (some (f, d)) none
        show Spec _ _ (Try.run (Fs.decoded d)) _ _
        cases hd : Bytes.decode? d with
        | none =>
          rw [Fs.decoded_none hd]
          refine .ret h₂ ⟨h₂, fun _ ht => (by cases ht), fun err he hk => ?_⟩
          cases he
          cases hk
        | some text =>
          rw [Fs.decoded_some hd]
          refine .ret h₂ ⟨h₂, fun text' ht f' d' hs => ?_, fun _ he => (by cases he)⟩
          cases ht
          cases hs
          exact hd
  · intro r m' hm' hr
    obtain ⟨-, htext, herr⟩ := hr
    cases r with
    | ok text =>
      refine .ret hm' ⟨hm', fun pid hp f d hs => ?_⟩
      cases hp
      rw [pidOfBytes, htext text rfl f d hs]
      rfl
    | error err =>
      show Spec _ _ (Try.run (if _ then _ else _)) _ _
      rw [Try.run_ite]
      split
      next hk =>
        refine .ret hm' ⟨hm', fun pid hp f d hs => ?_⟩
        rw [herr err rfl hk] at hs
        cases hs
      next => exact .ret hm' ⟨hm', fun _ hp => (by cases hp)⟩

/-- `remove_if_exists` after something that justifies it. -/
theorem removeIfExists_spec (h : m.Looking) (hj : Justified (m.seen, m.dead)) :
    Spec step m (removeIfExists path : SysTry S _).run Looking (fun _ => Looking) := by
  refine Spec.call h fun a => ?_
  have h₁ := h.remove (S := S) hj (p := path) a
  cases a with
  | ok u => exact .ret h₁ h₁
  | error err =>
    show Spec _ _ (Try.run (if _ then _ else _)) _ _
    rw [Try.run_ite]
    split
    next => exact .ret h₁ h₁
    next => exact .ret h₁ h₁

/-- A file is removed only if it names no pid, or one found dead. -/
theorem reclaim_spec (h : m.Looking) :
    Spec step m (reclaim path : SysTry S _).run Looking (fun _ => Looking) := by
  refine Spec.call h fun (there : Bool) => ?_
  cases there with
  | false => exact .ret h h
  | true =>
    show Spec _ _ ((readPid path : SysTry S _).run.bind (Try.next _)) _ _
    refine Spec.next (R := fun pid m' => m'.Looking ∧
      ∀ f d, m'.seen = some (f, d) → pidOfBytes d = pid) ((readPid_spec h).mono (fun _ h => h) ?_) ?_
    · intro r m' hr
      cases r with
      | ok pid => exact ⟨hr.1, hr.2 pid rfl⟩
      | error err => exact hr.1
    · intro pid m' _ hm'
      obtain ⟨hl, hseen⟩ := hm'
      cases pid with
      | none =>
        refine removeIfExists_spec hl fun f d hs pid hp => ?_
        rw [hseen f d hs] at hp
        cases hp
      | some pid =>
        -- the probe: `ESRCH` alone lets the file go
        refine Spec.call hl fun a => ?_
        have h₁ : Looking (m'.step (S := S) ⟨.kill pid.toInt32.toInt, a⟩) := by
          cases a <;> exact hl.see _ _
        cases a with
        | ok u => exact .ret h₁ h₁
        | error errno =>
          show Spec _ _ (Try.run (if (errno == EPERM) = true then _ else _)) _ _
          rw [Try.run_ite]
          split
          next => exact .ret h₁ h₁
          next hne =>
            refine removeIfExists_spec h₁ fun f d hs pid' hp => ?_
            have hpid : pidOfBytes d = some pid := hseen f d hs
            rw [hpid] at hp
            obtain rfl := Option.some.inj hp
            show (if errno = EPERM then none else _) = _
            rw [if_neg (by simpa using hne)]

/-- Writing the pid is none of the steps that matter. -/
theorem writePid_spec {file : Nat} (h : m.Making) :
    Spec step m (writePid file : SysTry S _).run Making (fun _ => Making) := by
  have hcalls : AllCalls (fun op : Op S => op = .processId ∨ ∃ buf, op = .writeFile file buf)
      (writePid file : SysTry S _).run := by
    refine Try.allCalls_bind (Try.allCalls_lift ⟨.inl rfl, fun _ => trivial⟩) fun pid => ?_
    refine Try.allCalls_bind (Try.allCalls_mapErr (allCalls_writeAll _ _ fun _ => .inr ⟨_, rfl⟩))
      fun _ => ?_
    exact Try.allCalls_bind (Try.allCalls_mapErr (allCalls_writeAll _ _ fun _ => .inr ⟨_, rfl⟩))
      fun _ => trivial
  refine Spec.keep hcalls ?_ h
  intro m op b hop hm
  rcases hop with rfl | ⟨buf, rfl⟩ <;> exact hm

/-- After a claim: the file of the guard was made, or the claim failed. -/
def Result (path : Path) (r : Except Error PidGuard) (m : Claimer) : Prop :=
  match r with
  | .ok guard => guard.path = path ∧ m.Making
  | .error _ => m.Sound

theorem attempts_spec (n : Nat) : ∀ {m : Claimer}, m.Looking →
    Spec step m (attempts path n : SysTry S _).run Sound (Result path) := by
  induction n with
  | zero =>
    intro m h
    refine Spec.next (R := fun _ m' => m'.Looking) ((readPid_spec h).mono (fun _ h => h.sound) ?_) ?_
    · intro r m' hr
      cases r with
      | ok pid => exact hr.1
      | error err => exact hr.1.sound
    · intro pid m' _ hm'
      exact .ret hm'.sound hm'.sound
  | succ n ih =>
    intro m h
    refine Spec.next (R := fun _ m' => m'.Looking) ((reclaim_spec h).mono (fun _ h => h.sound) ?_) ?_
    · intro r m' hr
      cases r with
      | ok u => exact hr
      | error err => exact hr.sound
    · intro _ m' _ hm'
      refine Spec.call hm'.sound fun a => ?_
      cases a with
      | ok file =>
        have hmade : Making (m'.step (S := S) ⟨.createNew path, .ok file⟩) := by
          refine ⟨⟨file, ?_⟩, hm'.drops, hm'.removals⟩
          show file :: m'.made = [file]
          rw [hm'.made]
        show Spec _ _ ((writePid file : SysTry S Unit).run.bind
          (Try.next fun _ => .ret (.ok (⟨path⟩ : PidGuard)))) _ _
        refine Spec.next (R := fun _ m' => m'.Making)
          ((writePid_spec hmade).mono (fun _ h => h.sound) ?_) ?_
        · intro r m' hr
          cases r with
          | ok u => exact hr
          | error err => exact hr.sound
        · intro _ m' hs hm'
          exact .ret hs ⟨rfl, hm'⟩
      | error err =>
        show Spec _ _ (Try.run (if _ then _ else _)) _ _
        rw [Try.run_ite]
        split
        next => exact ih hm'
        next => exact .ret hm'.sound hm'.sound

theorem claim_spec (h : m.Looking) :
    Spec step m (claim path : SysTry S _).run Sound (Result path) := by
  unfold claim
  split
  next =>
    refine Spec.next (R := fun _ m' => m'.Looking) ?_ fun _ m' _ hm' => attempts_spec 3 hm'
    refine Spec.call h.sound fun a => ?_
    cases a with
    | ok u => exact .ret h.sound h
    | error err => exact .ret h.sound h.sound
  next => exact attempts_spec 3 h

end Claim

end Claimer

theorem guardPidFile_spec (path : Path) :
    Spec Claimer.step {} (guardPidFile path : Sys S Unit) Claimer.Sound (fun _ => Claimer.Sound) := by
  refine Spec.bind (Claimer.claim_spec ⟨rfl, rfl, fun r hr => (nomatch hr)⟩) ?_
  intro r m hs hr
  cases r with
  | error err => exact .ret hs hs
  | ok guard =>
    refine Spec.call hs fun a => ?_
    obtain ⟨-, ⟨f, hf⟩, hd, hrem⟩ := hr
    have hm : m.step (S := S) ⟨.removeFile guard.path, a⟩ = { m with drops := m.drops + 1 } := by
      show (if m.made = [] then _ else _) = _
      rw [if_neg (by rw [hf]; exact List.cons_ne_nil _ _)]
    have h₁ : Claimer.Sound (m.step (S := S) ⟨.removeFile guard.path, a⟩) := by
      rw [hm]
      exact ⟨.inr ⟨f, hf, by rw [hd]⟩, hrem⟩
    exact .ret h₁ h₁

/-- A claim is the beginning of it. -/
theorem guard_traces {path : Path} {h : History S}
    (ht : Prog.Traces (claim path : SysTry S _).run h) :
    Prog.Traces (guardPidFile path : Sys S Unit) h := by
  obtain ⟨q, hq⟩ := ht
  exact ⟨_, hq.bind_left _⟩

/-- All its calls are about this path. -/
theorem guardPidFile_calls {path : Path} {h : History S}
    (ht : Prog.Traces (guardPidFile path : Sys S Unit) h) : ∀ e ∈ h, PidOp path e.1 := by
  obtain ⟨q, hq⟩ := ht
  rcases reach_bind_iff.mp hq with ⟨p', hp', -⟩ | ⟨t₁, t₂, r, rfl, h₁, h₂⟩
  · exact allCalls_claim.traces ⟨p', hp'⟩
  · intro e he
    rcases List.mem_append.mp he with he | he
    · exact allCalls_claim.traces h₁.traces e he
    · have hresult := (Claimer.claim_spec (m := {}) ⟨rfl, rfl, fun r hr => (nomatch hr)⟩).returns h₁
      cases r with
      | error err => exact (allCalls_ret ()).traces ⟨q, h₂⟩ e he
      | ok guard => exact hresult.1 ▸ allCalls_drop.traces ⟨q, h₂⟩ e he

/-! ## Any number of them -/

/-- Any number of processes, each claiming the PID file and dropping it. -/
def claimants (path : Path) : System (sysSig S) Os Os.Outside := host fun _ => .guard path

/-- Process `i` is running and holds a `PidGuard`. -/
def HoldsGuard (path : Path) (c : HostConfig S) (i : Nat) : Prop :=
  c.world.Running i ∧ ∃ guard, Returns (claim path : SysTry S _).run (c.hist i) (.ok guard)

/-- The step unlinks a PID file that another process, which is running, created. -/
def ForeignUnlink (path : Path) (c : HostConfig S) (l : HostLabel S) : Prop :=
  ∃ i f j, l = .act i ⟨.removeFile path, .ok ()⟩ ∧ c.world.nodes path = some (.file f) ∧
    (c.world.inodes f).creator = some j ∧ j ≠ i ∧ c.world.Running j

/-- The step is not one of two. A claim removes a file other than the one it read,
whose creator is running; or it reads a file that does not name its creator yet,
which is running. -/
structure Undisturbed (path : Path) (c : HostConfig S) (l : HostLabel S) : Prop where
  same_file : ∀ i a, l = .act i ⟨.removeFile path, a⟩ → (Claimer.of (c.hist i)).made = [] →
    ∀ f j, c.world.nodes path = some (.file f) → (c.world.inodes f).creator = some j →
      c.world.Running j → ∃ d, (Claimer.of (c.hist i)).seen = some (f, d)
  named : ∀ i f a, l = .act i ⟨.readFile f, a⟩ → ∀ j, (c.world.inodes f).creator = some j →
    c.world.Running j → pidOfBytes (c.world.inodes f).content = some (c.world.procs j).pid

/-- The invariant, about the host and where each process stands. -/
structure Owned (path : Path) (w : Os) (m : Nat → Claimer) : Prop where
  table : w.Table
  file_lt : ∀ f, w.nodes path = some (.file f) → f < w.nextFile
  seen_lt : ∀ i f d, (m i).seen = some (f, d) → f < w.nextFile
  creator : ∀ f j, (w.inodes f).creator = some j →
    f < w.nextFile ∧ (w.procs j).status ≠ .absent ∧ f ∈ (m j).made
  made : ∀ i f, f ∈ (m i).made → (w.inodes f).creator = some i
  /-- The path names the file of whoever made one and has not dropped it. -/
  path_file : ∀ i f, w.Running i → (m i).made = [f] → (m i).drops = 0 →
    w.nodes path = some (.file f)
  /-- What was read of a running process's file is its pid, -/
  read : ∀ i f d j, (m i).seen = some (f, d) → (w.inodes f).creator = some j → w.Running j →
    pidOfBytes d = some (w.procs j).pid
  /-- and the probe did not find it dead. -/
  probe : ∀ i f d j, (m i).seen = some (f, d) → (w.inodes f).creator = some j → w.Running j →
    (m i).dead ≠ some (w.procs j).pid.toInt32.toInt

namespace Owned

variable {path : Path} {w w' : Os} {m : Nat → Claimer} {i : Nat}

theorem initial (hw : w.Initial) : Owned path w (fun _ => {}) where
  table := hw.table
  file_lt := fun f hf => hw.file_lt path f hf
  seen_lt := fun _ _ _ hs => (nomatch hs)
  creator := fun f j hj => by rw [hw.creator f] at hj; cases hj
  made := fun _ _ hf => (nomatch hf)
  path_file := fun _ _ _ hf => (nomatch hf)
  read := fun _ _ _ _ hs => (nomatch hs)
  probe := fun _ _ _ _ hs => (nomatch hs)

/-- Whoever removes the path does not remove the file of another running process. -/
theorem removes_own (h : Owned path w m) (hi : w.Running i) (a : Except IoError Unit)
    (hsound : Claimer.Sound ((m i).step (S := S) ⟨.removeFile path, a⟩))
    (hsame : (m i).made = [] → ∀ f j, w.nodes path = some (.file f) →
      (w.inodes f).creator = some j → w.Running j → ∃ d, (m i).seen = some (f, d))
    {f j : Nat} (hf : w.nodes path = some (.file f)) (hj : (w.inodes f).creator = some j)
    (hr : w.Running j) : j = i := by
  by_cases hm : (m i).made = []
  · -- it looked at this very file, which named `j`, and `j` was alive
    exfalso
    obtain ⟨d, hd⟩ := hsame hm f j hf hj hr
    have hstep : (m i).step (S := S) ⟨.removeFile path, a⟩ =
        { m i with removals := ((m i).seen, (m i).dead) :: (m i).removals } := if_pos hm
    rw [hstep] at hsound
    have hjust := hsound.removals ((m i).seen, (m i).dead) (by simp)
    exact h.probe i f d j hd hj hr (hjust f d hd _ (h.read i f d j hd hj hr))
  · -- it drops the guard of its own file
    have hstep : (m i).step (S := S) ⟨.removeFile path, a⟩ =
        { m i with drops := (m i).drops + 1 } := if_neg hm
    rw [hstep] at hsound
    rcases hsound.made with ⟨hnil, -⟩ | ⟨g, hg, hle⟩
    · exact absurd hnil hm
    · have hg' : (m i).made = [g] := hg
      have hdrops : (m i).drops = 0 := by
        have : (m i).drops + 1 ≤ 1 := hle
        omega
      have hpath := h.path_file i g hi hg' hdrops
      rw [hf] at hpath
      injection hpath with hpath
      injection hpath with hpath
      have hcreator := h.made i g (by rw [hg']; simp)
      rw [← hpath, hj] at hcreator
      exact Option.some.inj hcreator

/-- A step that only looks. -/
theorem look (h : Owned path w m) {n : Claimer} (hmade : n.made = (m i).made)
    (hdrops : n.drops = (m i).drops)
    (hseen : ∀ f d, n.seen = some (f, d) → f < w.nextFile ∧
      ∀ j, (w.inodes f).creator = some j → w.Running j →
        pidOfBytes d = some (w.procs j).pid ∧ n.dead ≠ some (w.procs j).pid.toInt32.toInt) :
    Owned path w (Function.update m i n) where
  table := h.table
  file_lt := h.file_lt
  seen_lt := by
    intro k f d hs
    by_cases hk : k = i
    · subst hk
      rw [Function.update_self] at hs
      exact (hseen f d hs).1
    · rw [Function.update_of_ne hk] at hs
      exact h.seen_lt k f d hs
  creator := by
    intro f j hj
    obtain ⟨hlt, hs, hmem⟩ := h.creator f j hj
    refine ⟨hlt, hs, ?_⟩
    by_cases hk : j = i
    · subst hk
      rw [Function.update_self, hmade]
      exact hmem
    · rw [Function.update_of_ne hk]
      exact hmem
  made := by
    intro k f hf
    by_cases hk : k = i
    · subst hk
      rw [Function.update_self, hmade] at hf
      exact h.made k f hf
    · rw [Function.update_of_ne hk] at hf
      exact h.made k f hf
  path_file := by
    intro k f hr hf hd
    by_cases hk : k = i
    · subst hk
      rw [Function.update_self] at hf hd
      exact h.path_file k f hr (hmade ▸ hf) (hdrops ▸ hd)
    · rw [Function.update_of_ne hk] at hf hd
      exact h.path_file k f hr hf hd
  read := by
    intro k f d j hs hj hr
    by_cases hk : k = i
    · subst hk
      rw [Function.update_self] at hs
      exact ((hseen f d hs).2 j hj hr).1
    · rw [Function.update_of_ne hk] at hs
      exact h.read k f d j hs hj hr
  probe := by
    intro k f d j hs hj hr
    by_cases hk : k = i
    · subst hk
      rw [Function.update_self] at hs ⊢
      exact ((hseen f d hs).2 j hj hr).2
    · rw [Function.update_of_ne hk] at hs ⊢
      exact h.probe k f d j hs hj hr

/-- A step after which the files were made by the same processes, of which no more are
running, and everyone has seen and made the same. -/
theorem congr (h : Owned path w m) {m' : Nat → Claimer} (htable : w'.Table)
    (hlt : ∀ f, w'.nodes path = some (.file f) → f < w'.nextFile)
    (hnext : w'.nextFile = w.nextFile)
    (hcreator : ∀ f, (w'.inodes f).creator = (w.inodes f).creator)
    (hprocs : ∀ j, (w.procs j).status ≠ .absent → (w'.procs j).status ≠ .absent ∧
      (w'.Running j → w.Running j ∧ (w'.procs j).pid = (w.procs j).pid))
    (hm : ∀ k, (m' k).seen = (m k).seen ∧ (m' k).dead = (m k).dead ∧ (m' k).made = (m k).made)
    (hpath : ∀ k f, w'.Running k → (m' k).made = [f] → (m' k).drops = 0 →
      w'.nodes path = some (.file f)) : Owned path w' m' where
  table := htable
  file_lt := hlt
  seen_lt := by
    intro k f d hs
    rw [(hm k).1] at hs
    rw [hnext]
    exact h.seen_lt k f d hs
  creator := by
    intro f j hj
    rw [hcreator] at hj
    obtain ⟨hlt, hs, hmem⟩ := h.creator f j hj
    rw [hnext, (hm j).2.2]
    exact ⟨hlt, (hprocs j hs).1, hmem⟩
  made := by
    intro k f hf
    rw [(hm k).2.2] at hf
    rw [hcreator]
    exact h.made k f hf
  path_file := hpath
  read := by
    intro k f d j hs hj hr
    rw [(hm k).1] at hs
    rw [hcreator] at hj
    obtain ⟨hr', hpid⟩ := (hprocs j (h.creator f j hj).2.1).2 hr
    rw [hpid]
    exact h.read k f d j hs hj hr'
  probe := by
    intro k f d j hs hj hr
    rw [(hm k).1] at hs
    rw [hcreator] at hj
    obtain ⟨hr', hpid⟩ := (hprocs j (h.creator f j hj).2.1).2 hr
    rw [hpid, (hm k).2.1]
    exact h.probe k f d j hs hj hr'

/-- A step that changes neither the path nor who made which file. -/
theorem same (h : Owned path w m) (htable : w'.Table)
    (hnodes : w'.nodes path = w.nodes path) (hnext : w'.nextFile = w.nextFile)
    (hcreator : ∀ f, (w'.inodes f).creator = (w.inodes f).creator)
    (hprocs : ∀ j, (w.procs j).status ≠ .absent → (w'.procs j).status ≠ .absent ∧
      (w'.Running j → w.Running j ∧ (w'.procs j).pid = (w.procs j).pid)) : Owned path w' m := by
  refine h.congr htable ?_ hnext hcreator hprocs (fun _ => ⟨rfl, rfl, rfl⟩) ?_
  · intro f hf
    rw [hnext]
    exact h.file_lt f (hnodes ▸ hf)
  · intro k f hr hf hd
    have hk := (h.creator f k (h.made k f (by rw [hf]; simp))).2.1
    rw [hnodes]
    exact h.path_file k f ((hprocs k hk).2 hr).1 hf hd

/-- The path is removed, or the attempt fails. -/
theorem remove (h : Owned path w m) (hi : w.Running i) (a : Except IoError Unit)
    (hsound : Claimer.Sound ((m i).step (S := S) ⟨.removeFile path, a⟩))
    (hsame : (m i).made = [] → ∀ f j, w.nodes path = some (.file f) →
      (w.inodes f).creator = some j → w.Running j → ∃ d, (m i).seen = some (f, d)) :
    Owned path (w.after (S := S) i ⟨.removeFile path, a⟩)
      (Function.update m i ((m i).step (S := S) ⟨.removeFile path, a⟩)) := by
  have hstep : (m i).step (S := S) ⟨.removeFile path, a⟩ =
      if (m i).made = [] then { m i with removals := ((m i).seen, (m i).dead) :: (m i).removals }
      else { m i with drops := (m i).drops + 1 } := rfl
  have hw : w.after (S := S) i ⟨.removeFile path, a⟩ = w ∨
      w.after (S := S) i ⟨.removeFile path, a⟩ = w.setNode path none := by
    cases a with
    | ok u => exact .inr rfl
    | error err => exact .inl rfl
  refine h.congr (h.table.after i _) ?_ ?_ ?_ ?_ ?_ ?_
  · intro f hf
    rcases hw with hw | hw
    · rw [hw] at hf ⊢
      exact h.file_lt f hf
    · rw [hw, Os.nodes_setNode_self] at hf
      cases hf
  · rcases hw with hw | hw
    · rw [hw]
    · rw [hw]
      rfl
  · rcases hw with hw | hw <;> rw [hw] <;> exact fun _ => rfl
  · rcases hw with hw | hw <;> rw [hw] <;> exact fun j hs => ⟨hs, fun hr => ⟨hr, rfl⟩⟩
  · intro k
    by_cases hk : k = i
    · subst hk
      rw [Function.update_self, hstep]
      split <;> exact ⟨rfl, rfl, rfl⟩
    · rw [Function.update_of_ne hk]
      exact ⟨rfl, rfl, rfl⟩
  · intro k f hr hf hd
    rw [Os.running_after] at hr
    by_cases hk : k = i
    · -- whoever removes it does not hold it any more
      subst hk
      rw [Function.update_self, hstep] at hf hd
      split at hf
      next hnil =>
        rw [show _ = (m k).made from rfl, hnil] at hf
        cases hf
      next hne =>
        rw [if_neg hne] at hd
        cases hd
    · rw [Function.update_of_ne hk] at hf hd
      have hthere := h.path_file k f hr hf hd
      exact absurd (h.removes_own hi a hsound hsame hthere (h.made k f (by rw [hf]; simp)) hr) hk

/-- The file is made. -/
theorem create (h : Owned path w m) (hi : w.Running i) (hnone : w.nodes path = none)
    (hmade : (m i).made = []) :
    Owned path
      { (w.setNode path (some (.file w.nextFile))).setFile w.nextFile { creator := some i } with
        nextFile := w.nextFile + 1 }
      (Function.update m i { m i with made := [w.nextFile] }) := by
  have hm : ∀ k, (Function.update m i { m i with made := [w.nextFile] } k).seen = (m k).seen ∧
      (Function.update m i { m i with made := [w.nextFile] } k).dead = (m k).dead := by
    intro k
    by_cases hk : k = i
    · subst hk
      rw [Function.update_self]
      exact ⟨rfl, rfl⟩
    · rw [Function.update_of_ne hk]
      exact ⟨rfl, rfl⟩
  -- an old file has the creator it had
  have hold : ∀ f, f < w.nextFile → 
      Function.update w.inodes w.nextFile { creator := some i } f = w.inodes f := by
    intro f hf
    exact Function.update_of_ne (by omega) _ _
  have hnew : ∀ f j, (Function.update w.inodes w.nextFile { creator := some i } f).creator = some j →
      (f = w.nextFile ∧ j = i) ∨ (f < w.nextFile ∧ (w.inodes f).creator = some j) := by
    intro f j hj
    by_cases hf : f = w.nextFile
    · subst hf
      rw [Function.update_self] at hj
      exact .inl ⟨rfl, (Option.some.inj hj).symm⟩
    · rw [Function.update_of_ne hf] at hj
      exact .inr ⟨(h.creator f j hj).1, hj⟩
  refine ⟨h.table, ?_, ?_, ?_, ?_, ?_, ?_, ?_⟩
  · intro f hf
    have hf' : Function.update w.nodes path (some (.file w.nextFile)) path = some (.file f) := hf
    rw [Function.update_self] at hf'
    cases hf'
    exact Nat.lt_succ_self _
  · intro k f d hs
    rw [(hm k).1] at hs
    exact Nat.lt_succ_of_lt (h.seen_lt k f d hs)
  · intro f j hj
    rcases hnew f j hj with ⟨rfl, rfl⟩ | ⟨hlt, hj⟩
    · refine ⟨Nat.lt_succ_self _, ?_, ?_⟩
      · intro hs
        cases (show (w.procs j).status = .running from hi).symm.trans hs
      · rw [Function.update_self]
        exact List.mem_singleton.mpr rfl
    · obtain ⟨-, hs, hmem⟩ := h.creator f j hj
      refine ⟨Nat.lt_succ_of_lt hlt, hs, ?_⟩
      by_cases hji : j = i
      · subst hji
        rw [hmade] at hmem
        cases hmem
      · rw [Function.update_of_ne hji]
        exact hmem
  · intro k f hf
    show (Function.update w.inodes w.nextFile { creator := some i } f).creator = some k
    by_cases hk : k = i
    · subst hk
      rw [Function.update_self] at hf
      rw [List.mem_singleton.mp hf, Function.update_self]
    · rw [Function.update_of_ne hk] at hf
      have hc := h.made k f hf
      rw [hold f (h.creator f k hc).1]
      exact hc
  · intro k f hr hf hd
    show Function.update w.nodes path (some (.file w.nextFile)) path = some (.file f)
    rw [Function.update_self]
    by_cases hk : k = i
    · subst hk
      rw [Function.update_self] at hf
      injection hf with hf
      rw [hf]
    · rw [Function.update_of_ne hk] at hf hd
      have hthere := h.path_file k f hr hf hd
      rw [hnone] at hthere
      cases hthere
  · intro k f d j hs hj hr
    rw [(hm k).1] at hs
    rcases hnew f j hj with ⟨rfl, -⟩ | ⟨-, hj⟩
    · exact absurd (h.seen_lt k _ d hs) (Nat.lt_irrefl _)
    · exact h.read k f d j hs hj hr
  · intro k f d j hs hj hr
    rw [(hm k).1] at hs
    rw [(hm k).2]
    rcases hnew f j hj with ⟨rfl, -⟩ | ⟨-, hj⟩
    · exact absurd (h.seen_lt k _ d hs) (Nat.lt_irrefl _)
    · exact h.probe k f d j hs hj hr

end Owned

/-! ## Runs -/

section Run

variable {path : Path} {c c' : HostConfig S} {i : Nat}

theorem Claimer.of_append (h : History S) (e : SysEvent S) :
    Claimer.of (h ++ [e]) = (Claimer.of h).step e := by
  simp [Claimer.of]

/-- Where everyone stands. -/
def standing (c : HostConfig S) (k : Nat) : Claimer := Claimer.of (c.hist k)

theorem standing_act {e : SysEvent S} (hs : (claimants path).step c (.act i e) = some c') :
    standing c' = Function.update (standing c) i ((standing c i).step e) := by
  funext k
  by_cases hk : k = i
  · subst hk
    rw [standing, hist_act_self hs, Claimer.of_append, Function.update_self]
    rfl
  · rw [standing, hist_act_ne hs hk, Function.update_of_ne hk]
    rfl

/-- Where a process stands after a call of its own. -/
theorem standing_sound {e : SysEvent S}
    (hs : (claimants path).step c (.act i e) = some c')
    (hb : (claimants path).behaviour i (c'.hist i)) : Claimer.Sound ((standing c i).step e) := by
  obtain ⟨q, hq⟩ : Prog.Traces (guardPidFile path) (c'.hist i) := hb
  have hsp := (guardPidFile_spec path).always hq
  rwa [hist_act_self hs, List.foldl_append] at hsp

/-- One call. -/
theorem Owned.act {e : SysEvent S} (h : Owned path c.world (standing c))
    (hs : (claimants path).step c (.act i e) = some c')
    (hb : (claimants path).behaviour i (c'.hist i)) (hu : Undisturbed path c (.act i e)) :
    Owned path c'.world (standing c') := by
  obtain ⟨hi, hans, hw⟩ := Os.act_eq_some.mp (step_act.mp hs).1
  have hop : PidOp path e.1 := guardPidFile_calls hb e (by rw [hist_act_self hs]; simp)
  have hsound := standing_sound hs hb
  have hsame : ∀ a, e = ⟨.removeFile path, a⟩ → (standing c i).made = [] →
      ∀ f j, c.world.nodes path = some (.file f) → (c.world.inodes f).creator = some j →
        c.world.Running j → ∃ d, (standing c i).seen = some (f, d) := by
    intro a he
    exact hu.same_file i a (by rw [he])
  have hnamed : ∀ f a, e = ⟨.readFile f, a⟩ → ∀ j, (c.world.inodes f).creator = some j →
      c.world.Running j → pidOfBytes (c.world.inodes f).content = some (c.world.procs j).pid := by
    intro f a he
    exact hu.named i f a (by rw [he])
  rw [standing_act hs, hw]
  clear hs hb hu hw
  generalize standing c = m at h hsound hsame ⊢
  obtain ⟨op, a⟩ := e
  cases op with
  | createDirAll | pathExists | processId =>
    show Owned path c.world (Function.update m i (m i))
    rw [Function.update_eq_self]
    exact h
  | openFile p => exact h.look rfl rfl fun f d hs => by cases hs
  | readFile f =>
    cases a with
    | error err => exact h.look rfl rfl fun f d hs => by cases hs
    | ok d =>
      have hans' : decide (f < c.world.nextFile) && (c.world.inodes f).content == d := by
        simpa [Os.isSpurious, Os.isSpuriousAnswer, Os.answers] using hans
      simp only [Bool.and_eq_true, decide_eq_true_eq, beq_iff_eq] at hans'
      refine h.look rfl rfl ?_
      intro f' d' hs
      cases hs
      refine ⟨hans'.1, fun j hj hr => ⟨?_, fun hd => by cases hd⟩⟩
      rw [← hans'.2]
      exact hnamed f _ rfl j hj hr
  | kill q =>
    cases a with
    | ok u =>
      refine h.look rfl rfl fun f d hs => ⟨h.seen_lt i f d hs, fun j hj hr => ?_⟩
      exact ⟨h.read i f d j hs hj hr, fun hd => by cases hd⟩
    | error errno =>
      refine h.look rfl rfl fun f d hs => ⟨h.seen_lt i f d hs, fun j hj hr => ?_⟩
      refine ⟨h.read i f d j hs hj hr, fun hd => ?_⟩
      -- a process that is running is not found dead
      have hd' : (if errno = EPERM then none else some q) =
          some (c.world.procs j).pid.toInt32.toInt := hd
      split at hd'
      next => cases hd'
      next hne =>
        obtain rfl := Option.some.inj hd'
        have hlive := h.table.live hr
        obtain ⟨-, hpos, hlt⟩ := h.table j (.inl hr)
        rcases hans with hans | hans
        · cases hans
        · rw [Os.toInt32_pid hlt] at hans hlive
          simp only [Os.answers, Os.killAnswer, hlive, if_true, Bool.or_eq_true,
            decide_eq_true_eq] at hans
          omega
  | removeFile p =>
    obtain rfl : p = path := hop
    exact h.remove hi a hsound (hsame a rfl)
  | createNew p =>
    obtain rfl : p = path := hop
    cases a with
    | error err =>
      show Owned p c.world (Function.update m i (m i))
      rw [Function.update_eq_self]
      exact h
    | ok f =>
      obtain ⟨hnone, rfl⟩ := Os.createNew_ok hans
      have hmade : (m i).made = [] := by
        rcases hsound.made with ⟨hnil, -⟩ | ⟨g, hg, -⟩
        · cases hnil
        · exact (List.cons.inj hg).2
      have hc := h.create hi hnone hmade
      rw [← hmade] at hc
      exact hc
  | writeFile f buf =>
    have hc : ∀ g, ((c.world.after (S := S) i ⟨.writeFile f buf, a⟩).inodes g).creator =
        (c.world.inodes g).creator := by
      intro g
      cases a with
      | error err => rfl
      | ok k =>
        show (Function.update c.world.inodes f _ g).creator = _
        by_cases hg : g = f
        · subst hg
          rw [Function.update_self]
        · rw [Function.update_of_ne hg]
    have hsame' : Owned path (c.world.after (S := S) i ⟨.writeFile f buf, a⟩) m := by
      refine h.same (h.table.after i _) ?_ ?_ hc fun j hs => ⟨?_, fun hr => ⟨?_, ?_⟩⟩
      all_goals cases a <;> first | rfl | assumption
    show Owned path _ (Function.update m i (m i))
    rw [Function.update_eq_self]
    exact hsame'
  | _ => exact hop.elim

/-- One step of nobody's. -/
theorem Owned.outside {o : Os.Outside} (h : Owned path c.world (standing c))
    (hs : (claimants path).step c (.outside o) = some c') :
    Owned path c'.world (standing c') := by
  obtain ⟨ho, hh⟩ := step_outside.mp hs
  have hst : standing c' = standing c := by
    funext k
    rw [standing, hh]
    rfl
  rw [hst]
  obtain ⟨hn, hf, hi⟩ := Os.outside_files ho
  refine h.same (h.table.outside ho) (by rw [hn]) hf (fun f => by rw [hi]) ?_
  intro j hj
  exact ⟨Os.not_absent_of_outside ho hj, fun hr => Os.running_of_outside ho hr hj⟩

theorem HoldsGuard.standing (h : HoldsGuard path c i) : ∃ f, (standing c i).made = [f] ∧
    (standing c i).drops = 0 := by
  obtain ⟨-, guard, hg⟩ := h
  obtain ⟨-, ⟨f, hf⟩, hd, -⟩ :=
    (Claimer.claim_spec (m := {}) ⟨rfl, rfl, fun r hr => (nomatch hr)⟩).returns hg
  exact ⟨f, hf, hd⟩

/-- **Who holds the PID file**: in a run that no such race disturbs, at most one
running process, and none removes the file of another. -/
theorem guard_exclusive (path : Path) (w₀ : Os) (ls : List (HostLabel S)) (c : HostConfig S)
    (hw : w₀.Initial) (hr : Run (claimants path) (Undisturbed path) (.start w₀) ls c) :
    (∀ i j, HoldsGuard path c i → HoldsGuard path c j → i = j) ∧
      Run (claimants path) (fun c l => ¬ ForeignUnlink path c l) (.start w₀) ls c := by
  have hstep : ∀ (c : HostConfig S) l c', Owned path c.world (standing c) →
      (claimants path).step c l = some c' →
      (∀ i e, l = .act i e → (claimants path).behaviour i (c'.hist i)) → Undisturbed path c l →
      Owned path c'.world (standing c') ∧ ¬ ForeignUnlink path c l := by
    intro c l c' h hs hb hu
    cases l with
    | outside o =>
      refine ⟨h.outside hs, fun hf => ?_⟩
      obtain ⟨i, f, j, he, -⟩ := hf
      cases he
    | act k e =>
      refine ⟨h.act hs (hb k e rfl) hu, fun hf => ?_⟩
      obtain ⟨i, f, j, he, hnode, hcreator, hne, hrun⟩ := hf
      injection he with hk he
      subst hk he
      exact hne (h.removes_own (Os.act_eq_some.mp (step_act.mp hs).1).1 (.ok ())
        (standing_sound hs (hb _ _ rfl)) (hu.same_file k (.ok ()) rfl) hnode hcreator hrun)
  have hinv : Owned path c.world (standing c) :=
    hr.inv (I := fun c => Owned path c.world (standing c)) (.initial hw)
      fun c l c' h hs hb hu => (hstep c l c' h hs hb hu).1
  refine ⟨fun i j hi hj => ?_, hr.mono_inv (.initial hw) hstep⟩
  obtain ⟨f, hf, hfd⟩ := hi.standing
  obtain ⟨g, hg, hgd⟩ := hj.standing
  have hpath := hinv.path_file i f hi.1 hf hfd
  rw [hinv.path_file j g hj.1 hg hgd] at hpath
  injection hpath with hpath
  injection hpath with hpath
  have hi' := hinv.made i f (by rw [hf]; simp)
  rw [← hpath, hinv.made j g (by rw [hg]; simp)] at hi'
  exact (Option.some.inj hi').symm

end Run

/-! ## Two runs -/

/-- Where the PID file is. -/
def pidPath : Path := ["run", "app.pid"]

/-- A host on which a file is left that names no process. -/
def staleHost : Os where
  nodes p := if p = pidPath then some (.file 0) else none
  inodes f := { content := if f = 0 then pidDigits 7 ++ newline else [] }
  nextFile := 1
  listeners _ := {}
  nextListener := 0
  ends _ := {}
  target _ := 0
  nextConn := 0
  procs _ := {}
  pids _ := none
  clock := 0

theorem staleHost_initial : staleHost.Initial where
  procs _ := rfl
  pids _ := rfl
  file_lt p f h := by
    simp only [staleHost] at h
    split at h
    next =>
      cases h
      exact Nat.zero_lt_one
    next => cases h
  socket_lt p l h := by
    simp only [staleHost] at h
    split at h <;> cases h
  creator _ := rfl
  listeners _ := rfl
  ends _ := rfl

/-- A claim up to the probe of the process that the file names. -/
def looks (file : Nat) (pid : UInt32) (a : Except Nat Unit) : History Unit :=
  [⟨.createDirAll ["run"], .ok ()⟩, ⟨.pathExists pidPath, true⟩, ⟨.openFile pidPath, .ok file⟩,
    ⟨.readFile file, .ok (pidDigits pid ++ newline)⟩, ⟨.kill pid.toInt32.toInt, a⟩]

/-- The rest of a claim that removes what is there. -/
def takes (file : Nat) (pid : UInt32) : History Unit :=
  [⟨.removeFile pidPath, .ok ()⟩, ⟨.createNew pidPath, .ok file⟩, ⟨.processId, pid⟩,
    ⟨.writeFile file (pidDigits pid), .ok (whole (pidDigits pid))⟩,
    ⟨.writeFile file newline, .ok (whole newline)⟩]

/-- Both look at the stale file before either removes it. -/
def raceSchedule : List (HostLabel Unit) :=
  [.outside (.start 0 100), .outside (.start 1 101)] ++
    (looks 0 7 (.error ESRCH)).map (.act 0) ++ (looks 0 7 (.error ESRCH)).map (.act 1) ++
    (takes 1 100).map (.act 0) ++ (takes 2 101).map (.act 1)

/-- Two processes that claim a stale PID file at the same time can both hold it. -/
theorem two_holders :
    ¬ ∀ (path : Path) (w₀ : Os) (ls : List (HostLabel Unit)) (c : HostConfig Unit), w₀.Initial →
      Run (claimants path) anyStep (.start w₀) ls c →
        (∀ i j, HoldsGuard path c i → HoldsGuard path c j → i = j) ∧
          Run (claimants path) (fun c l => ¬ ForeignUnlink path c l) (.start w₀) ls c := by
  intro hclaim
  have hplay : ((claimants pidPath).play (fun _ _ => true) (.start staleHost) raceSchedule).map
      (fun c => decide (c.world.Running 0 ∧ c.world.Running 1)) = some true := by decide +kernel
  obtain ⟨c, hc, hrunning⟩ := Option.map_eq_some_iff.mp hplay
  obtain ⟨hr₀, hr₁⟩ := of_decide_eq_true hrunning
  have h₀ : Returns (claim pidPath : SysTry Unit _).run (raceSchedule.filterMap (Label.of? 0))
    (.ok ⟨pidPath⟩) := returns_of_follow 60 (by rfl)
  have h₁ : Returns (claim pidPath : SysTry Unit _).run (raceSchedule.filterMap (Label.of? 1))
    (.ok ⟨pidPath⟩) := returns_of_follow 60 (by rfl)
  have hrun := run_of_play hc fun i => ?_
  · rw [← hist_of_play hc 0] at h₀
    rw [← hist_of_play hc 1] at h₁
    have hboth := (hclaim pidPath staleHost raceSchedule c staleHost_initial hrun.any).1 0 1
      ⟨hr₀, _, h₀⟩ ⟨hr₁, _, h₁⟩
    cases hboth
  · match i with
    | 0 => exact guard_traces h₀.traces
    | 1 => exact guard_traces h₁.traces
    | i + 2 => exact Role.traces_nil _

/-- One after the other: the second finds the first alive. -/
def politeSchedule : List (HostLabel Unit) :=
  [.outside (.start 0 100), .outside (.start 1 101)] ++
    (looks 0 7 (.error ESRCH)).map (.act 0) ++ (takes 1 100).map (.act 0) ++
    (looks 1 100 (.ok ())).map (.act 1)

/-- No step of the schedule touches a file of a running process but to read its pid. -/
def keepsOff (c : HostConfig Unit) : HostLabel Unit → Bool
  | .act _ ⟨.removeFile _, _⟩ => match c.world.nodes pidPath with
    | some (.file f) => (c.world.inodes f).creator.isNone
    | _ => true
  | .act _ ⟨.readFile f, _⟩ => match (c.world.inodes f).creator with
    | some j => pidOfBytes (c.world.inodes f).content == some (c.world.procs j).pid
    | none => true
  | _ => true

/-- In the run of the schedule the first process alone holds the file. -/
theorem guard_exclusive_polite :
    ∃ c : HostConfig Unit, c.world.Running 0 ∧ c.world.Running 1 ∧ HoldsGuard pidPath c 0 ∧
      (∀ i j, HoldsGuard pidPath c i → HoldsGuard pidPath c j → i = j) ∧
      Run (claimants pidPath) (fun c l => ¬ ForeignUnlink pidPath c l) (.start staleHost)
        politeSchedule c := by
  have hplay : ((claimants pidPath).play keepsOff (.start staleHost) politeSchedule).map
      (fun c => decide (c.world.Running 0 ∧ c.world.Running 1)) = some true := by decide +kernel
  obtain ⟨c, hc, hrunning⟩ := Option.map_eq_some_iff.mp hplay
  obtain ⟨hr₀, hr₁⟩ := of_decide_eq_true hrunning
  have h₀ : Returns (claim pidPath : SysTry Unit _).run (politeSchedule.filterMap (Label.of? 0))
    (.ok ⟨pidPath⟩) := returns_of_follow 60 (by rfl)
  have h₁ : Returns (claim pidPath : SysTry Unit _).run (politeSchedule.filterMap (Label.of? 1))
    (.error (.daemonAlreadyRunning (some 100) none)) := returns_of_follow 60 (by rfl)
  have hrun := run_of_play hc fun i => ?_
  · have hundisturbed := hrun.mono fun c l hok => show Undisturbed pidPath c l from ?_
    · obtain ⟨hexcl, hkeeps⟩ := guard_exclusive pidPath staleHost politeSchedule c
        staleHost_initial hundisturbed
      rw [← hist_of_play hc 0] at h₀
      exact ⟨c, hr₀, hr₁, ⟨hr₀, _, h₀⟩, hexcl, hkeeps⟩
    · refine ⟨?_, ?_⟩
      · intro i a hl _ f j hf hj _
        rw [hl] at hok
        simp only [keepsOff, hf, hj] at hok
        cases hok
      · intro i f a hl j hj _
        rw [hl] at hok
        simpa only [keepsOff, hj, beq_iff_eq] using hok
  · match i with
    | 0 => exact guard_traces h₀.traces
    | 1 => exact guard_traces h₁.traces
    | i + 2 => exact Role.traces_nil _

end Sockd
