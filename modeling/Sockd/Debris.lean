import Sockd.Reclaim

/-!
# What a claim that fails leaves at the path

`PidGuard::claim` with every call of the file system free to fail (`Faulty`): a claim
that returns an error has left the path as it was, or empty, exactly if none of its
writes failed (`clean_iff`). There is no guard yet when the pid is written, so a failed
write leaves the new file with what was written of the pid so far.
-/

namespace Sockd

open Rust Effects Effects.Prog

variable {S : Type}

/-- The call failed: `Path::exists` then says no, and a write may also take nothing. -/
def Failing : SysEvent S → Prop
  | ⟨.createDirAll _, .error _⟩ | ⟨.openFile _, .error _⟩ | ⟨.readFile _, .error _⟩
  | ⟨.removeFile _, .error _⟩ | ⟨.createNew _, .error _⟩ | ⟨.writeFile _ _, .error _⟩ => True
  | ⟨.pathExists _, there⟩ => there = false
  | ⟨.writeFile _ buf, .ok k⟩ => k.1 = 0 ∧ buf ≠ []
  | _ => False

/-- A call of process `i` is answered by the host, or it fails. -/
def Faulty (i : Nat) (w : Os) (ev : SysEvent S) : Prop := w.answers i ev = true ∨ Failing ev

/-- A write failed in a way that `write_all` does not retry. -/
def WriteBroke (t : History S) : Prop := ∃ f err, WriteFault (Fs.fileWriter f) err t

/-- The path holds what it held, or nothing; no file was made, and none was changed. -/
structure Clean (path : Path) (w w' : Os) : Prop where
  node : w'.nodes path = w.nodes path ∨ w'.nodes path = none
  inodes : w'.inodes = w.inodes
  nextFile : w'.nextFile = w.nextFile

/-- The path holds a file that was made since, with a part of the own pid. -/
def Debris (i : Nat) (path : Path) (w w' : Os) : Prop :=
  ∃ f, w.nextFile ≤ f ∧ w'.nodes path = some (.file f) ∧
    (w'.inodes f).content <+: pidDigits (w.procs i).pid ++ newline ∧
    (w'.inodes f).content.length < (pidDigits (w.procs i).pid ++ newline).length

/-! ## Calls that make nothing -/

section Clearing

variable {path : Path} {w w₁ w₂ : Os} {i : Nat} {t u : History S}

theorem Clean.refl : Clean path w w := ⟨.inl rfl, rfl, rfl⟩

theorem Clean.trans (h₁ : Clean path w w₁) (h₂ : Clean path w₁ w₂) : Clean path w w₂ where
  node := by
    rcases h₂.node with h | h
    · rw [h]
      exact h₁.node
    · exact .inr h
  inodes := h₂.inodes.trans h₁.inodes
  nextFile := h₂.nextFile.trans h₁.nextFile

/-- The calls of a claim up to `create_new`. -/
def ClearOp (path : Path) : Op S → Prop
  | .createDirAll _ | .pathExists _ | .openFile _ | .readFile _ | .kill _ => True
  | .removeFile p => p = path
  | _ => False

theorem LookOp.clearOp (op : Op S) (h : LookOp path op) : ClearOp path op := by
  cases op <;> first | exact trivial | exact h.elim

theorem allCalls_reclaim_clear :
    AllCalls (ClearOp path) (PidGuard.reclaim path : SysTry S Unit).run :=
  PidGuard.allCalls_reclaim_of trivial LookOp.clearOp rfl

theorem clean_after {ev : SysEvent S} (h : ClearOp path ev.1) : Clean path w (w.after i ev) := by
  obtain ⟨op, a⟩ := ev
  cases op with
  | createDirAll p => exact .refl
  | pathExists p => exact .refl
  | openFile p => exact .refl
  | readFile f => exact .refl
  | kill q => exact .refl
  | removeFile p =>
    obtain rfl : p = path := h
    cases a with
    | ok u => exact ⟨.inr (Os.nodes_setNode_self _ _ _), rfl, rfl⟩
    | error err => exact .refl
  | _ => exact h.elim

/-- A part of the run that makes no other call. -/
theorem clean_of_calls (h : ∀ e ∈ t, ClearOp path e.1) :
    Clean path w (t.foldl (fun w e => w.after i e) w) := by
  induction t generalizing w with
  | nil => exact .refl
  | cons e t ih =>
    have he : Clean path w (w.after i e) := clean_after (h e (by simp))
    exact he.trans (ih fun e' he' => h e' (by simp [he']))

theorem writeBroke_append_iff : WriteBroke (t ++ u) ↔ WriteBroke t ∨ WriteBroke u := by
  constructor
  · rintro ⟨f, err, ⟨hk, buf, a, hmem, ha⟩ | ⟨hk, buf, a, hmem, ha⟩⟩
    · exact (List.mem_append.mp hmem).imp (fun h => ⟨f, err, .inl ⟨hk, buf, a, h, ha⟩⟩)
        fun h => ⟨f, err, .inl ⟨hk, buf, a, h, ha⟩⟩
    · exact (List.mem_append.mp hmem).imp (fun h => ⟨f, err, .inr ⟨hk, buf, a, h, ha⟩⟩)
        fun h => ⟨f, err, .inr ⟨hk, buf, a, h, ha⟩⟩
  · rintro (⟨f, err, h⟩ | ⟨f, err, h⟩)
    · exact ⟨f, err, h.mono fun ev he => List.mem_append_left _ he⟩
    · exact ⟨f, err, h.mono fun ev he => List.mem_append_right _ he⟩

/-- A failed write is a write. -/
theorem WriteBroke.exists_write (h : WriteBroke t) : ∃ f buf a, ⟨.writeFile f buf, a⟩ ∈ t := by
  obtain ⟨f, err, ⟨-, buf, a, hmem, -⟩ | ⟨-, buf, a, hmem, -⟩⟩ := h
  · exact ⟨f, buf, a, hmem⟩
  · exact ⟨f, buf, a, hmem⟩

theorem not_broke_of_calls (h : ∀ e ∈ t, ClearOp path e.1) : ¬ WriteBroke t := by
  intro hbroke
  obtain ⟨f, buf, a, hmem⟩ := hbroke.exists_write
  exact (h _ hmem).elim

end Clearing

/-! ## The write -/

section Breaking

variable {path : Path} {w : Os} {i f : Nat} {t : History S}

/-- What a run of writes does to the file. -/
theorem wrote_of_writing {full d : Bytes} (h : Writing (Fs.fileWriter f) full t d) :
    Wrote f w (t.foldl (fun w e => w.after i e) w) d := by
  induction h with
  | nil => exact ⟨rfl, by rw [List.append_nil]; rfl, rfl, rfl⟩
  | @write t d buf a _ _ _ ih =>
    rw [List.foldl_append]
    refine ih.trans ?_
    generalize t.foldl (fun w e => w.after i e) w = w
    cases a with
    | ok k => exact ⟨rfl, Function.update_self _ _ _, rfl, rfl⟩
    | error err =>
      have hnothing : { w.inodes f with content := (w.inodes f).content ++ [] } = w.inodes f := by
        rw [List.append_nil]
      exact ⟨rfl, hnothing.symm, rfl, rfl⟩

theorem returns_mapErr_error {E : Sig} {α ε ε' : Type} {p : Try E ε α} {g : ε → ε'} {e : ε'}
    {t : List (Event E)} (h : Returns (p.mapErr g).run t (.error e)) :
    ∃ e₀, Returns p.run t (.error e₀) ∧ e = g e₀ := by
  obtain ⟨u, v, r, rfl, hp, hr⟩ := returns_bind_iff.mp h
  obtain ⟨rfl, he⟩ := returns_ret_iff.mp hr
  rw [List.append_nil]
  cases r with
  | ok a => cases he
  | error e₀ => exact ⟨e₀, hp, (Except.error.inj he).symm⟩

theorem returns_mapErr_ok {E : Sig} {α ε ε' : Type} {p : Try E ε α} {g : ε → ε'} {a : α}
    {t : List (Event E)} (h : Returns (p.mapErr g).run t (.ok a)) : Returns p.run t (.ok a) := by
  obtain ⟨u, v, r, rfl, hp, hr⟩ := returns_bind_iff.mp h
  obtain ⟨rfl, he⟩ := returns_ret_iff.mp hr
  rw [List.append_nil]
  cases r with
  | ok a' => exact Except.ok.inj he ▸ hp
  | error e₀ => cases he

/-- A `write_all` that fails took less than everything, because a write failed. -/
theorem writeAll_error {buf : Bytes} {err : IoError}
    (h : Returns ((Fs.fileWriter f).writeAll buf : SysIo S Unit).run t (.error err)) :
    WriteBroke t ∧ ∃ d, Wrote f w (t.foldl (fun w e => w.after i e) w) d ∧ d <+: buf ∧
      d.length < buf.length := by
  have hspec := (writeAll_spec _ _).returns h
  rw [Spec.foldl_record] at hspec
  obtain ⟨d, hw, hlt, hfault⟩ := hspec
  exact ⟨⟨f, err, hfault⟩, d, wrote_of_writing hw, hw.le, hlt⟩

theorem writeAll_ok {buf : Bytes}
    (h : Returns ((Fs.fileWriter f).writeAll buf : SysIo S Unit).run t (.ok ())) :
    Wrote f w (t.foldl (fun w e => w.after i e) w) buf := by
  have hspec := (writeAll_spec _ _).returns h
  rw [Spec.foldl_record] at hspec
  obtain ⟨d, hw, rfl⟩ := hspec
  exact wrote_of_writing hw

/-- The pid is not written completely, because a write failed. -/
theorem writePid_error {err : Error}
    (h : Returns (PidGuard.writePid f : SysTry S Unit).run t (.error err))
    (hok : Total.Allowed (Faulty i) (fun w e => w.after i e) w t) :
    WriteBroke t ∧ ∃ d, Wrote f w (t.foldl (fun w e => w.after i e) w) d ∧
      d <+: pidDigits (w.procs i).pid ++ newline ∧
      d.length < (pidDigits (w.procs i).pid ++ newline).length := by
  rcases Try.returns_bind_iff.mp h with ⟨e, -, hpid⟩ | ⟨u, t, pid, rfl, hpid, h⟩
  · obtain ⟨_, _, a, -, -, hret⟩ := returns_bind_iff.mp hpid
    cases (returns_ret_iff.mp hret).2
  obtain ⟨a, v, rfl, hret⟩ := returns_call_iff.mp (Try.returns_lift_iff.mp hpid)
  obtain ⟨rfl, rfl⟩ := returns_ret_iff.mp hret
  obtain ⟨hans, hok⟩ := hok
  -- asking for the pid does not fail
  have hans : ((w.procs i).pid == a) = true := hans.resolve_right id
  obtain rfl := eq_of_beq hans
  rcases Try.returns_bind_iff.mp h with ⟨e, -, hdigits⟩ | ⟨u, t, _, rfl, hdigits, h⟩
  · obtain ⟨e₀, hdigits, -⟩ := returns_mapErr_error hdigits
    obtain ⟨hbroke, d, hwrote, hle, hlt⟩ := writeAll_error (w := w) (i := i) hdigits
    refine ⟨writeBroke_append_iff.mpr (.inr hbroke), d, hwrote,
      hle.trans (List.prefix_append _ _), ?_⟩
    rw [List.length_append]
    omega
  have hwrote₁ := writeAll_ok (w := w) (i := i) (returns_mapErr_ok hdigits)
  rcases Try.returns_bind_iff.mp h with ⟨e, -, hline⟩ | ⟨_, _, _, -, -, hflush⟩
  · obtain ⟨e₀, hline, -⟩ := returns_mapErr_error hline
    obtain ⟨hbroke, d, hwrote₂, hle, hlt⟩ :=
      writeAll_error (w := u.foldl (fun w e => w.after i e) w) (i := i) hline
    refine ⟨(writeBroke_append_iff (t := [_])).mpr
      (.inr (writeBroke_append_iff.mpr (.inr hbroke))), _, ?_,
      (List.prefix_append_right_inj _).mpr hle, ?_⟩
    · show Wrote f w ((u ++ t).foldl _ w) _
      rw [List.foldl_append]
      exact hwrote₁.trans hwrote₂
    · rw [List.length_append, List.length_append]
      omega
  · cases (returns_ret_iff.mp hflush).2

end Breaking

/-! ## The claim -/

section Claiming

variable {path : Path} {w : Os} {i : Nat} {t u : History S} {err : Error}

/-- What is at the path after a claim that failed: nothing new if no write failed, else
a part of the pid. -/
def LeftBy (i : Nat) (path : Path) (w : Os) (t : History S) : Prop :=
  (¬ WriteBroke t ∧ Clean path w (t.foldl (fun w e => w.after i e) w)) ∨
    (WriteBroke t ∧ Debris i path w (t.foldl (fun w e => w.after i e) w))

theorem leftBy_of_calls (h : ∀ e ∈ t, ClearOp path e.1) : LeftBy i path w t :=
  .inl ⟨not_broke_of_calls h, clean_of_calls h⟩

theorem procs_of_calls (h : ∀ e ∈ t, ClearOp path e.1) :
    (t.foldl (fun w e => w.after i e) w).procs = w.procs := by
  induction t generalizing w with
  | nil => rfl
  | cons e t ih =>
    have he : (w.after i e).procs = w.procs := by
      have hop := h e (by simp)
      obtain ⟨op, a⟩ := e
      cases op with
      | removeFile p => cases a <;> rfl
      | createDirAll p => rfl
      | pathExists p => rfl
      | openFile p => rfl
      | readFile f => rfl
      | kill q => rfl
      | _ => exact hop.elim
    exact (ih fun e' he' => h e' (by simp [he'])).trans he

/-- What comes before `create_new` makes no difference. -/
theorem LeftBy.after (ht : ∀ e ∈ t, ClearOp path e.1)
    (h : LeftBy i path (t.foldl (fun w e => w.after i e) w) u) : LeftBy i path w (t ++ u) := by
  have hclean : Clean path w (t.foldl (fun w e => w.after i e) w) := clean_of_calls ht
  unfold LeftBy
  rw [List.foldl_append]
  rcases h with ⟨hno, hclean'⟩ | ⟨hbroke, f, hle, hnode, hprefix, hlt⟩
  · refine .inl ⟨fun hbroke => ?_, hclean.trans hclean'⟩
    rcases writeBroke_append_iff.mp hbroke with hbroke | hbroke
    · exact not_broke_of_calls ht hbroke
    · exact hno hbroke
  · rw [procs_of_calls ht] at hprefix hlt
    exact .inr ⟨writeBroke_append_iff.mpr (.inr hbroke), f, hclean.nextFile ▸ hle, hnode, hprefix,
      hlt⟩

theorem attempts_leftBy {n : Nat}
    (h : Returns (PidGuard.attempts path n : SysTry S PidGuard).run t (.error err))
    (hok : Total.Allowed (Faulty i) (fun w e => w.after i e) w t) : LeftBy i path w t := by
  induction n generalizing w t with
  | zero =>
    have hcalls : AllCalls (ClearOp path) (PidGuard.attempts path 0 : SysTry S PidGuard).run :=
      Try.allCalls_bind (allCalls_readPid.mono LookOp.clearOp) fun _ => trivial
    exact leftBy_of_calls (hcalls.traces h.traces)
  | succ n ih =>
    rcases Try.returns_bind_iff.mp h with ⟨e, -, hreclaim⟩ | ⟨t, v, _, rfl, hreclaim, h⟩
    · exact leftBy_of_calls (allCalls_reclaim_clear.traces hreclaim.traces)
    have ht := allCalls_reclaim_clear.traces hreclaim.traces
    refine LeftBy.after ht ?_
    have hok := hok.append_inv.2
    generalize t.foldl (fun w e => w.after i e) w = w at hok
    rcases Try.returns_bind_iff.mp h with ⟨e, -, hcreate⟩ | ⟨u, v, r, rfl, hcreate, h⟩
    · exact (Try.returns_attempt_error hcreate).elim
    obtain ⟨a, _, rfl, hret⟩ := returns_call_iff.mp (Try.returns_attempt_iff.mp hcreate)
    obtain ⟨rfl, rfl⟩ := returns_ret_iff.mp hret
    obtain ⟨hans, hok⟩ := hok
    cases a with
    | ok f =>
      have hans := Os.createNew_ok (.inr (hans.resolve_right id))
      rcases Try.returns_bind_iff.mp h with ⟨e, -, hwrite⟩ | ⟨_, _, _, -, -, hret⟩
      · -- the new file is there, and is not written completely
        obtain ⟨hbroke, d, hwrote, hprefix, hlt⟩ := writePid_error hwrite hok
        have hcontent := congrArg Inode.content hwrote.inode
        rw [hans.2, inode_created] at hcontent
        refine .inr ⟨writeBroke_append_iff.mpr (.inr hbroke), f, hans.2.ge, ?_, ?_⟩
        · exact (congrFun hwrote.nodes path).trans (Function.update_self _ _ _)
        · rw [hans.2]
          exact ⟨hcontent ▸ hprefix, hcontent ▸ hlt⟩
      · cases (returns_ret_iff.mp hret).2
    | error e =>
      have hno : ¬ WriteBroke ([⟨.createNew path, .error e⟩] : History S) := by
        intro hbroke
        obtain ⟨f, buf, a, hmem⟩ := hbroke.exists_write
        cases List.mem_singleton.mp hmem
      dsimp only at h
      rw [Try.run_ite] at h
      split at h
      next =>
        rcases ih h hok with ⟨hno', hclean⟩ | ⟨hbroke, hdebris⟩
        · exact .inl ⟨fun hbroke => (writeBroke_append_iff.mp hbroke).elim hno hno', hclean⟩
        · exact .inr ⟨writeBroke_append_iff.mpr (.inr hbroke), hdebris⟩
      next =>
        obtain ⟨rfl, -⟩ := returns_ret_iff.mp h
        exact .inl ⟨hno, .refl⟩

theorem claim_leftBy (h : Returns (PidGuard.claim path : SysTry S PidGuard).run t (.error err))
    (hok : Total.Allowed (Faulty i) (fun w e => w.after i e) w t) : LeftBy i path w t := by
  unfold PidGuard.claim at h
  split at h
  next parent _ =>
    have hdir : AllCalls (ClearOp path)
        ((Fs.createDirAll parent : SysIo S Unit).mapErr Error.io).run :=
      Try.allCalls_mapErr ⟨trivial, fun _ => trivial⟩
    rcases Try.returns_bind_iff.mp h with ⟨e, -, hfail⟩ | ⟨t, u, _, rfl, hmade, h⟩
    · exact leftBy_of_calls (hdir.traces hfail.traces)
    · exact LeftBy.after (hdir.traces hmade.traces) (attempts_leftBy h hok.append_inv.2)
  next => exact attempts_leftBy h hok

/-- The file that was at the path is not the one that was made. -/
theorem Debris.not_clean {w' : Os} (hold : ∀ f, w.nodes path = some (.file f) → f < w.nextFile)
    (h : Debris i path w w') : ¬ Clean path w w' := by
  intro hclean
  obtain ⟨f, hle, hnode, -⟩ := h
  rcases hclean.node with hsame | hnone
  · exact absurd (hold f (hsame.symm.trans hnode)) (by omega)
  · rw [hnone] at hnode
    cases hnode

/-- A claim that fails has left no debris exactly if no write failed. -/
theorem clean_iff (hold : ∀ f, w.nodes path = some (.file f) → f < w.nextFile)
    (h : Returns (PidGuard.claim path : SysTry S PidGuard).run t (.error err))
    (hok : Total.Allowed (Faulty i) (fun w e => w.after i e) w t) :
    Clean path w (t.foldl (fun w e => w.after i e) w) ↔ ¬ WriteBroke t := by
  rcases claim_leftBy h hok with ⟨hno, hclean⟩ | ⟨hbroke, hdebris⟩
  · exact ⟨fun _ => hno, fun _ => hclean⟩
  · exact ⟨fun hclean => absurd hclean (hdebris.not_clean hold), fun hno => absurd hbroke hno⟩

end Claiming

/-! ## A full disk -/

/-- A stale PID file, and a process with the pid 100. -/
def fullHost : Os := { staleHost with procs := fun _ => { pid := 100, status := .running } }

/-- The error of a disk that is full. -/
def noSpace : IoError := ⟨.other, "No space left on device (os error 28)"⟩

/-- The claim removes the stale file, and the disk is full after two digits. -/
def fullRun : History Unit :=
  [⟨.createDirAll ["run"], .ok ()⟩, ⟨.pathExists pidPath, true⟩, ⟨.openFile pidPath, .ok 0⟩,
    ⟨.readFile 0, .ok (pidDigits 7 ++ newline)⟩, ⟨.kill 7, .error ESRCH⟩,
    ⟨.removeFile pidPath, .ok ()⟩, ⟨.createNew pidPath, .ok 1⟩, ⟨.processId, (100 : UInt32)⟩,
    ⟨.writeFile 1 (pidDigits 100), .ok ⟨2, by decide⟩⟩,
    ⟨.writeFile 1 ((pidDigits 100).drop 2), .error noSpace⟩]

theorem fullHost_old (f : Nat) (h : fullHost.nodes pidPath = some (.file f)) :
    f < fullHost.nextFile := by
  obtain rfl : 0 = f := Node.file.inj (Option.some.inj h)
  exact Nat.one_pos

theorem fullRun_fails : Returns (PidGuard.claim pidPath : SysTry Unit PidGuard).run fullRun
    (.error (.io noSpace)) := returns_of_follow 60 (by rfl)

theorem fullRun_faulty :
    Total.Allowed (Faulty 0) (fun w e => w.after 0 e) fullHost fullRun :=
  ⟨.inl rfl, .inl rfl, .inl rfl, .inl rfl, .inl rfl, .inl rfl, .inl rfl, .inl rfl, .inl rfl,
    .inr trivial, trivial⟩

theorem clean_iff_fullRun :
    Clean pidPath fullHost (fullRun.foldl (fun w e => w.after 0 e) fullHost) ↔
      ¬ WriteBroke fullRun :=
  clean_iff fullHost_old fullRun_fails fullRun_faulty

/-- The claim fails, and the path then names process 10. -/
theorem debris_fullRun : ¬ ∀ (i : Nat) (path : Path) (w : Os) (t : History Unit) (err : Error),
    (∀ f, w.nodes path = some (.file f) → f < w.nextFile) →
    Returns (PidGuard.claim path : SysTry Unit PidGuard).run t (.error err) →
    Total.Allowed (Faulty i) (fun w e => w.after i e) w t →
    Clean path w (t.foldl (fun w e => w.after i e) w) := by
  intro h
  have hclean := h 0 pidPath fullHost fullRun _ fullHost_old fullRun_fails fullRun_faulty
  have hnode : (fullRun.foldl (fun w e => w.after 0 e) fullHost).nodes pidPath =
      some (.file 1) := rfl
  rcases hclean.node with hsame | hnone
  · rw [hnode] at hsame
    cases hsame
  · rw [hnode] at hnone
    cases hnone

example : pidOfBytes ((fullRun.foldl (fun w e => w.after 0 e) fullHost).inodes 1).content =
    some 10 := by rfl

end Sockd
