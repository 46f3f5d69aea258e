import Sockd.Effects.Total
import Sockd.Keeping
import Sockd.ProcTable

/-!
# Claiming a PID file that is there

What `PidGuard::claim` makes of the PID file it finds, when nobody else touches it and
no call fails (`Calm`): for every content, and every process table. The run is
followed to its end (`Total`), so a claim also is known to return.

A content that is not UTF-8 is the one exception: `read_pid` takes the failure to read
it as text for a failure of the file, and `claim` hands it on (`reclaims_iff`).
-/

namespace Sockd

open Rust Effects Effects.Prog

variable {S : Type}

/-- What the calls at the PID file can answer when nobody else touches it, none of them
fails, and `T` are the processes. Other calls can answer anything. -/
def Calm (T : ProcTable) (i : Nat) (path : Path) (w : Os) (ev : SysEvent S) : Prop :=
  PidOp path ev.1 → w.answers i ev = true ∧ ∀ q a, ev = ⟨.kill q, a⟩ → a = T.kill q

/-- `T` are the processes of the host, as process `i` sees them. -/
structure Shows (T : ProcTable) (w : Os) (i : Nat) : Prop where
  self : T.self.pid = (w.procs i).pid.toNat
  kill : ∀ pid : UInt32, w.killAnswer pid.toInt32.toInt (T.kill pid.toInt32.toInt) = true

/-- There is a file with this content at the path. -/
def FileAt (path : Path) (d : Bytes) (w : Os) : Prop :=
  ∃ f, w.nodes path = some (.file f) ∧ f < w.nextFile ∧ (w.inodes f).content = d

/-- The programs that run undisturbed end like that. -/
abbrev Settles {α : Type} (T : ProcTable) (i : Nat) (path : Path) (p : Sys S α) (w : Os)
    (Q : α → Os → Prop) : Prop :=
  Total (Calm T i path) (fun w ev => w.after i ev) p w Q

section Looking

variable {T : ProcTable} {i : Nat} {path : Path} {w : Os} {d : Bytes}

/-- A call that can only be answered with `b`. -/
theorem ask_total {op : Op S} {b : Ans op} (hans : w.answers i ⟨op, b⟩ = true)
    (hkill : ∀ q a, (⟨op, b⟩ : SysEvent S) = ⟨.kill q, a⟩ → a = T.kill q)
    (hunique : ∀ b', Calm T i path w ⟨op, b'⟩ → b' = b) :
    Settles T i path (perform op) w fun r w' => r = b ∧ w' = w.after i ⟨op, b⟩ :=
  Total.ask (fun _ => ⟨hans, hkill⟩) hunique ⟨rfl, rfl⟩

theorem openFile_total {f : Nat} (hnode : w.nodes path = some (.file f)) :
    Settles T i path (Fs.openFile path : SysIo S Nat).run w fun r w' => r = .ok f ∧ w' = w := by
  refine ask_total (by simp [Os.answers, hnode]) nofun fun b hb => ?_
  have hb := (hb rfl).1
  cases b with
  | error err => simp [Os.answers, hnode] at hb
  | ok g =>
    simp only [Os.answers, hnode, beq_iff_eq, Option.some.injEq, Node.file.injEq] at hb
    rw [hb]

theorem readFile_total {f : Nat} (hlt : f < w.nextFile) :
    Settles T i path (Fs.readToEnd f : SysIo S Bytes).run w
      fun r w' => r = .ok (w.inodes f).content ∧ w' = w := by
  refine ask_total (by simp [Os.answers, hlt]) nofun fun b hb => ?_
  have hb := (hb trivial).1
  cases b with
  | error err => simp [Os.answers] at hb
  | ok d =>
    simp only [Os.answers, Bool.and_eq_true, beq_iff_eq] at hb
    rw [hb.2]

/-- What `read_to_string` makes of a content. -/
def asText (d : Bytes) : Except IoError (List Char) :=
  match Bytes.decode? d with
  | some text => .ok text
  | none => .error ⟨.invalidData, "stream did not contain valid UTF-8"⟩

theorem readToString_total (hfile : FileAt path d w) :
    Settles T i path (Fs.readToString path : SysIo S (List Char)).run w
      fun r w' => r = asText d ∧ w' = w := by
  obtain ⟨f, hnode, hlt, rfl⟩ := hfile
  refine Total.bind (openFile_total hnode) ?_
  rintro _ _ ⟨rfl, rfl⟩
  refine Total.bind (readFile_total hlt) ?_
  rintro _ w ⟨rfl, rfl⟩
  show Settles T i path (Try.run (match Bytes.decode? (w.inodes f).content with
    | some text => return text
    | none => Try.fail ⟨.invalidData, "stream did not contain valid UTF-8"⟩)) w
      fun r w' => r = asText (w.inodes f).content ∧ w' = w
  unfold asText
  cases Bytes.decode? (w.inodes f).content with
  | some text => exact .ret ⟨rfl, rfl⟩
  | none => exact .ret ⟨rfl, rfl⟩

/-- What `read_pid` makes of a content. -/
def readPidResult (d : Bytes) : Except Error (Option UInt32) :=
  match Bytes.decode? d with
  | some text => .ok (pidOfText text)
  | none => .error (.io ⟨.invalidData, "stream did not contain valid UTF-8"⟩)

theorem readPid_total (hfile : FileAt path d w) :
    Settles T i path (readPid path : SysTry S (Option UInt32)).run w
      fun r w' => r = readPidResult d ∧ w' = w := by
  refine Total.attempt (readToString_total hfile) ?_
  rintro _ _ ⟨rfl, rfl⟩
  unfold asText readPidResult
  cases Bytes.decode? d with
  | some text => exact .ret ⟨rfl, rfl⟩
  | none => exact .ret ⟨rfl, rfl⟩

theorem isProcessAlive_total (hT : Shows T w i) (pid : UInt32) :
    Settles T i path (isProcessAlive pid : Sys S Bool) w
      fun r w' => r = T.isAlive pid ∧ w' = w := by
  have hask : Settles T i path (kill pid.toInt32.toInt : Sys S _) w
      fun r w' => r = T.kill pid.toInt32.toInt ∧ w' = w := by
    refine ask_total (hT.kill _) ?_ fun b hb => (hb trivial).2 _ _ rfl
    intro q a he
    cases he
    rfl
  refine Total.bind hask ?_
  rintro _ _ ⟨rfl, rfl⟩
  unfold ProcTable.isAlive
  cases T.kill pid.toInt32.toInt with
  | ok u => exact .ret ⟨rfl, rfl⟩
  | error errno => exact .ret ⟨rfl, rfl⟩

/-- The content names a live process. -/
def LivePid (T : ProcTable) (d : Bytes) (pid : UInt32) : Prop :=
  pidOfBytes d = some pid ∧ T.isAlive pid = true

theorem pathExists_total (hfile : FileAt path d w) :
    Settles T i path (Fs.pathExists path : Sys S Bool) w fun r w' => r = true ∧ w' = w := by
  obtain ⟨f, hnode, -⟩ := hfile
  refine ask_total (by simp [Os.answers, hnode]) nofun fun (b : Bool) hb => ?_
  have hb : ((w.nodes path).isSome == b) = true := (hb rfl).1
  rw [hnode] at hb
  exact (eq_of_beq hb).symm

theorem removeIfExists_total (hfile : FileAt path d w) :
    Settles T i path (removeIfExists path : SysTry S Unit).run w
      fun r w' => r = .ok () ∧ w' = w.setNode path none := by
  obtain ⟨f, hf, -⟩ := hfile
  have hans : w.answers i (⟨.removeFile path, .ok ()⟩ : SysEvent S) = true := by
    simp [Os.answers, hf]
  refine Total.attempt (ask_total hans (fun q a he => by cases he) fun b hb => ?_) ?_
  · have hb := (hb rfl).1
    cases b with
    | ok u => rfl
    | error err => simp [Os.answers, hf] at hb
  · rintro _ _ ⟨rfl, rfl⟩
    exact .ret ⟨rfl, rfl⟩

/-- The part that looks at the file fails if it names a live process, else it removes
the file. -/
theorem reclaim_total (hfile : FileAt path d w) (hutf8 : Bytes.decode? d ≠ none)
    (hT : Shows T w i) :
    Settles T i path (PidGuard.reclaim path : SysTry S Unit).run w fun r w' =>
      (∃ pid, LivePid T d pid ∧ r = .error (.daemonAlreadyRunning (some pid) none) ∧ w' = w) ∨
        ((∀ pid, ¬ LivePid T d pid) ∧ r = .ok () ∧ w' = w.setNode path none) := by
  have hremove := removeIfExists_total (S := S) (T := T) (i := i) hfile
  obtain ⟨text, htext⟩ := Option.ne_none_iff_exists'.mp hutf8
  have hpid : readPidResult d = .ok (pidOfBytes d) := by
    rw [readPidResult, pidOfBytes, htext]
    rfl
  refine Total.lift (pathExists_total hfile) ?_
  rintro _ w ⟨rfl, rfl⟩
  refine Total.next (R := fun p w' => p = pidOfBytes d ∧ w' = w)
    ((readPid_total hfile).mono fun r w' hr => ⟨_, hr.1.trans hpid, rfl, hr.2⟩) ?_
  rintro _ w ⟨rfl, rfl⟩
  cases hnames : pidOfBytes d with
  | none =>
    refine hremove.mono fun r w' hr => .inr ⟨fun pid hlive => ?_, hr⟩
    have hpid := hlive.1
    rw [hnames] at hpid
    cases hpid
  | some pid =>
    refine Total.lift (isProcessAlive_total hT pid) ?_
    rintro _ w ⟨rfl, rfl⟩
    rw [Try.run_ite]
    split
    next halive => exact .ret (.inl ⟨pid, ⟨hnames, halive⟩, rfl, rfl⟩)
    next hdead =>
      refine hremove.mono fun r w' hr => .inr ⟨fun pid' hlive => ?_, hr⟩
      have hpid := hlive.1
      rw [hnames] at hpid
      obtain rfl := Option.some.inj hpid
      exact hdead hlive.2

end Looking

/-! ## The new file -/

/-- `d` was written to the file `f` since `w`. -/
structure Wrote (f : Nat) (w w' : Os) (d : Bytes) : Prop where
  nodes : w'.nodes = w.nodes
  inode : w'.inodes f = { w.inodes f with content := (w.inodes f).content ++ d }
  nextFile : w'.nextFile = w.nextFile
  procs : w'.procs = w.procs

theorem Wrote.trans {f : Nat} {w w₁ w₂ : Os} {d₁ d₂ : Bytes} (h₁ : Wrote f w w₁ d₁)
    (h₂ : Wrote f w₁ w₂ d₂) : Wrote f w w₂ (d₁ ++ d₂) := by
  refine ⟨h₂.nodes.trans h₁.nodes, ?_, h₂.nextFile.trans h₁.nextFile, h₂.procs.trans h₁.procs⟩
  rw [h₂.inode, h₁.inode, List.append_assoc]

section Writing

variable {T : ProcTable} {i : Nat} {path : Path} {w : Os} {f : Nat}

/-- `write_all` gets rid of everything, whatever pieces the file takes. -/
theorem writeFile_total (buf : Bytes) (hown : (w.inodes f).creator = some i) :
    Settles T i path ((Fs.fileWriter f).writeAll buf : SysIo S Unit).run w
      fun r w' => r = .ok () ∧ Wrote f w w' buf := by
  refine Total.loop_of_measure (fun rest w' => ∃ d, Wrote f w w' d ∧ d ++ rest = buf)
    (fun rest _ => rest.length) (fun r w' => r = .ok () ∧ Wrote f w w' buf) ?_
    (fun r w' hr => .ret hr) ⟨[], ⟨rfl, by rw [List.append_nil], rfl, rfl⟩, rfl⟩
  intro rest w' h
  obtain ⟨d, hd, rfl⟩ := h
  have hown' : (w'.inodes f).creator = some i := by rw [hd.inode, hown]
  split
  next hnil =>
    subst hnil
    rw [List.append_nil]
    exact .ret ⟨rfl, hd⟩
  next hne =>
    have hpos := List.length_pos_of_ne_nil hne
    refine .call ⟨.ok ⟨rest.length, Nat.le_refl _⟩, fun _ => ⟨?_, nofun⟩⟩ fun b hb => ?_
    · simp [Os.answers, hown', hpos, Fs.fileWriter]
    have hb := (hb trivial).1
    cases b with
    | error err => cases hb
    | ok k =>
      have hk : ((w'.inodes f).creator == some i && decide (0 < k.1 ∨ rest = [])) = true := hb
      rw [Bool.and_eq_true, decide_eq_true_eq] at hk
      have hk := hk.2.resolve_right hne
      show Total _ _ (writeNext rest (.ok k)) _ _
      rw [writeNext, if_neg (by omega)]
      refine .ret ⟨⟨d ++ rest.take k.1, hd.trans ⟨rfl, ?_, rfl, rfl⟩, ?_⟩, ?_⟩
      · exact Function.update_self _ _ _
      · rw [List.append_assoc, List.take_append_drop]
      · show (rest.drop k.1).length < rest.length
        rw [List.length_drop]
        omega

/-- The new file gets the pid of its process. -/
theorem writePid_total (hown : (w.inodes f).creator = some i) :
    Settles T i path (PidGuard.writePid f : SysTry S Unit).run w fun r w' =>
      r = .ok () ∧ Wrote f w w' (pidDigits (w.procs i).pid ++ newline) := by
  refine Total.lift (R := fun pid w' => pid = (w.procs i).pid ∧ w' = w) ?_ ?_
  · refine ask_total (by simp [Os.answers]) nofun fun (pid : UInt32) hb => ?_
    have hb : ((w.procs i).pid == pid) = true := (hb trivial).1
    exact (eq_of_beq hb).symm
  rintro _ w ⟨rfl, rfl⟩
  refine Total.next (R := fun _ w' => Wrote f w w' (pidDigits (w.procs i).pid)) ?_ ?_
  · refine Total.mapErr ((writeFile_total _ hown).mono ?_)
    exact fun r w' hr => ⟨(), hr.1, hr.2⟩
  intro _ w₁ h₁
  have hown₁ : (w₁.inodes f).creator = some i := by rw [h₁.inode, hown]
  refine Total.next (R := fun _ w' => Wrote f w₁ w' newline) ?_ ?_
  · refine Total.mapErr ((writeFile_total _ hown₁).mono ?_)
    exact fun r w' hr => ⟨(), hr.1, hr.2⟩
  intro _ w₂ h₂
  exact .ret ⟨rfl, h₁.trans h₂⟩

end Writing

/-! ## The claim -/

/-- How a claim of the path ends, where a file with the content `d` was there in `w`: a
file that names a live process is left as it was; any other is replaced by one that
has the own pid, and `read_pid` reads it back. -/
def ClaimEnd (S : Type) (T : ProcTable) (i : Nat) (path : Path) (d : Bytes) (w : Os)
    (r : Except Error PidGuard) (w' : Os) : Prop :=
  (∃ pid, LivePid T d pid ∧ r = .error (.daemonAlreadyRunning (some pid) none) ∧ w' = w) ∨
    ((∀ pid, ¬ LivePid T d pid) ∧ r = .ok ⟨path⟩ ∧
      FileAt path (pidDigits (w.procs i).pid ++ newline) w' ∧
      Settles T i path (readPid path : SysTry S (Option UInt32)).run w'
        fun r' _ => r' = .ok (some (w.procs i).pid))

section Claiming

variable {T : ProcTable} {i : Nat} {path : Path} {w : Os} {d : Bytes}

theorem inode_created (w : Os) (f : Nat) :
    (w.after i (⟨.createNew path, .ok f⟩ : SysEvent S)).inodes f = { creator := some i } :=
  Function.update_self _ _ _

/-- `create_new` where nothing is. -/
theorem createNew_total (hnone : w.nodes path = none) :
    Settles T i path (Fs.createNew path : SysIo S Nat).run w fun r w' =>
      r = .ok w.nextFile ∧ w' = w.after i (⟨.createNew path, .ok w.nextFile⟩ : SysEvent S) := by
  refine ask_total (by simp [Os.answers, hnone]) nofun fun b hb => ?_
  have hb := (hb rfl).1
  cases b with
  | error err => simp [Os.answers, hnone] at hb
  | ok f =>
    rw [(Os.createNew_ok (.inr hb)).2]

/-- The own pid is read back. -/
theorem readBack_total {pid : UInt32} (hfile : FileAt path (pidDigits pid ++ newline) w) :
    Settles T i path (readPid path : SysTry S (Option UInt32)).run w
      fun r _ => r = .ok (some pid) := by
  refine (readPid_total hfile).mono fun r w' hr => ?_
  obtain ⟨text, htext, hpid⟩ := Option.bind_eq_some_iff.mp (pidOfBytes_pidDigits pid)
  rw [hr.1, readPidResult, htext]
  exact congrArg Except.ok hpid

theorem attempts_total (n : Nat) (hfile : FileAt path d w) (hutf8 : Bytes.decode? d ≠ none)
    (hT : Shows T w i) :
    Settles T i path (PidGuard.attempts path (n + 1) : SysTry S PidGuard).run w
      (ClaimEnd S T i path d w) := by
  refine Total.bind (reclaim_total hfile hutf8 hT) fun r w₁ hr => ?_
  rcases hr with ⟨pid, hlive, rfl, rfl⟩ | ⟨hno, rfl, rfl⟩
  · exact .ret (.inl ⟨pid, hlive, rfl, rfl⟩)
  refine Total.attempt (createNew_total (Os.nodes_setNode_self _ _ _)) ?_
  rintro _ w₂ ⟨rfl, rfl⟩
  refine Total.next (R := fun _ w' => Wrote w.nextFile _ w' (pidDigits (w.procs i).pid ++ newline))
    ((writePid_total ?_).mono fun r w' hr => ⟨(), hr.1, hr.2⟩) fun _ w₃ hwrote => ?_
  · rw [inode_created]
  have hat : FileAt path (pidDigits (w.procs i).pid ++ newline) w₃ := by
    refine ⟨w.nextFile, ?_, ?_, ?_⟩
    · rw [hwrote.nodes]
      exact Function.update_self _ _ _
    · rw [hwrote.nextFile]
      exact Nat.lt_succ_self _
    · rw [hwrote.inode]
      have hempty : (((w.setNode path none).after i
          (⟨.createNew path, .ok w.nextFile⟩ : SysEvent S)).inodes w.nextFile).content = [] := by
        rw [inode_created]
      exact congrArg (· ++ (pidDigits (w.procs i).pid ++ newline)) hempty
  exact .ret (.inr ⟨hno, rfl, hat, readBack_total hat⟩)

theorem createDirAll_total {parent : Path} (hparent : path.parent? = some parent) :
    Settles T i path (Fs.createDirAll parent : SysIo S Unit).run w
      (Total.succeeds fun _ w' => w' = w) := by
  have hdir : Settles T i path (Fs.createDirAll parent : SysIo S Unit).run w
      fun r w' => r = .ok () ∧ w' = w := by
    refine ask_total rfl nofun fun b hb => ?_
    have hb := (hb hparent).1
    cases b with
    | ok u => rfl
    | error err => cases hb
  exact hdir.mono fun r w' hr => ⟨(), hr.1, hr.2⟩

theorem claim_total (hfile : FileAt path d w) (hutf8 : Bytes.decode? d ≠ none)
    (hT : Shows T w i) :
    Settles T i path (PidGuard.claim path : SysTry S PidGuard).run w
      (ClaimEnd S T i path d w) := by
  unfold PidGuard.claim
  cases hparent : path.parent? with
  | none => exact attempts_total 2 hfile hutf8 hT
  | some parent =>
    refine Total.next (R := fun _ w' => w' = w) (Total.mapErr (createDirAll_total hparent)) ?_
    rintro _ w rfl
    exact attempts_total 2 hfile hutf8 hT

/-- What claims of a file with this content do, for all process tables and all hosts. -/
def Reclaims (S : Type) (d : Bytes) : Prop :=
  ∀ (T : ProcTable) (i : Nat) (path : Path) (w : Os), FileAt path d w → Shows T w i →
    Settles T i path (PidGuard.claim path : SysTry S PidGuard).run w (ClaimEnd S T i path d w)

/-- The failure to read bytes as text. -/
def notText : Error := .io ⟨.invalidData, "stream did not contain valid UTF-8"⟩

/-- The claim of a file that is not UTF-8 hands that failure on. -/
theorem claim_notText (hfile : FileAt path d w) (hd : Bytes.decode? d = none) :
    Settles T i path (PidGuard.claim path : SysTry S PidGuard).run w
      fun r _ => r = .error notText := by
  have hreclaim : ∀ {w : Os}, FileAt path d w →
      Settles T i path (PidGuard.reclaim path : SysTry S Unit).run w
        fun r _ => r = .error notText := by
    intro w hfile
    refine Total.lift (pathExists_total hfile) ?_
    rintro _ w ⟨rfl, rfl⟩
    refine Total.bind (readPid_total hfile) ?_
    rintro _ w ⟨rfl, rfl⟩
    rw [readPidResult, hd]
    exact .ret rfl
  have hattempts : ∀ {w : Os}, FileAt path d w →
      Settles T i path (PidGuard.attempts path 3 : SysTry S PidGuard).run w
        fun r _ => r = .error notText := by
    intro w hfile
    refine Total.bind (hreclaim hfile) ?_
    rintro _ w rfl
    exact .ret rfl
  unfold PidGuard.claim
  cases hparent : path.parent? with
  | none => exact hattempts hfile
  | some parent =>
    refine Total.next (R := fun _ w' => w' = w) (Total.mapErr (createDirAll_total hparent)) ?_
    rintro _ w rfl
    exact hattempts hfile

/-- A host with one process, and one file. -/
def oneFile (path : Path) (d : Bytes) : Os where
  nodes p := if p = path then some (.file 0) else none
  inodes _ := { content := d }
  nextFile := 1
  listeners _ := {}
  nextListener := 0
  ends _ := {}
  target _ := 0
  nextConn := 0
  procs _ := { pid := 1, status := .running }
  pids p := if p = 1 then some 0 else none
  clock := 0

/-- That one process. -/
def oneProcess : ProcTable where
  self := ⟨1, 1, true, false⟩
  others := []
  valid := by simp [Task.Valid]
  self_permitted := rfl

theorem fileAt_oneFile : FileAt path d (oneFile path d) := ⟨0, if_pos rfl, Nat.one_pos, rfl⟩

/-- What `kill` says of one process, when it is asked about a single one. -/
theorem kill_oneProcess {q : Int} (hq : 0 < q) :
    oneProcess.kill q = if q = 1 then .ok () else .error ESRCH := by
  have htargets : oneProcess.targets q = if q = 1 then [oneProcess.self] else [] := by
    rw [ProcTable.targets, if_pos hq]
    show List.filter _ [oneProcess.self] = _
    by_cases h : q = 1
    · subst h
      rfl
    · have hne : decide ((oneProcess.self.pid : Int) = q) = false :=
        decide_eq_false fun he => h he.symm
      rw [List.filter_cons, hne, if_neg h]
      rfl
  unfold ProcTable.kill
  by_cases h : q = 1
  · rw [htargets, if_pos h, if_pos h]
    rfl
  · rw [htargets, if_neg h, if_neg h]
    exact if_pos rfl

theorem shows_oneProcess : Shows oneProcess (oneFile path d) 0 := by
  refine ⟨rfl, fun pid => ?_⟩
  by_cases hq : pid.toInt32.toInt ≤ 0
  · unfold Os.killAnswer
    split <;> rw [decide_eq_true hq, Bool.true_or]
  · have hval : pid.toInt32.toInt = pid.toNat := by
      rw [ProcTable.toInt_toInt32] at hq ⊢
      have hlt := pid.toNat_lt
      split at hq
      next h => exact if_pos h
      next => omega
    have hlive : (oneFile path d).live pid.toInt32.toInt = decide (pid = 1) := by
      unfold Os.live
      rw [decide_eq_true (by omega), Bool.true_and, hval, Int.toNat_natCast, UInt32.ofNat_toNat]
      show (if pid = 1 then some 0 else none : Option Nat).isSome = _
      split <;> simp [*]
    have hone : pid.toInt32.toInt = 1 ↔ pid = 1 := by
      rw [hval]
      exact ⟨fun h => UInt32.toNat_inj.mp (Int.ofNat_inj.mp h), fun h => h ▸ rfl⟩
    rw [kill_oneProcess (by omega)]
    unfold Os.killAnswer
    by_cases hpid : pid = 1
    · rw [hone.mpr hpid] at hlive ⊢
      rw [if_pos rfl]
      simp [hlive, hpid]
    · rw [if_neg (mt hone.mp hpid)]
      simp [hlive, hpid]

/-- Claims of a file with this content are as documented, for all process tables and all
hosts, exactly if the content is UTF-8. -/
theorem reclaims_iff (d : Bytes) : Reclaims S d ↔ Bytes.decode? d ≠ none := by
  refine ⟨fun h hd => ?_, fun hutf8 T i path w hfile hT => claim_total hfile hutf8 hT⟩
  have hboth := (claim_notText fileAt_oneFile hd).and
    (h oneProcess 0 ["run", "sockd.pid"] (oneFile ["run", "sockd.pid"] d) fileAt_oneFile
      shows_oneProcess)
  obtain ⟨r, w, rfl, hend⟩ := hboth.exists_end
  rcases hend with ⟨pid, -, he, -⟩ | ⟨-, he, -⟩ <;> cases he

/-- A file with the single byte 0xFF is malformed, and is not reclaimed. -/
theorem notText_not_reclaimed : ¬ ∀ d, Reclaims Unit d := by
  intro h
  have hnotText : Bytes.decode? [0xff] = none := by decide
  have hboth := (claim_notText fileAt_oneFile hnotText).and
    (h [0xff] oneProcess 0 ["run", "sockd.pid"] (oneFile ["run", "sockd.pid"] [0xff])
      fileAt_oneFile shows_oneProcess)
  obtain ⟨r, w, rfl, hend⟩ := hboth.exists_end
  rcases hend with ⟨pid, -, he, -⟩ | ⟨-, he, -⟩ <;> cases he

end Claiming

end Sockd
