import Sockd.Bracket
import Sockd.Exclusion

/-!
# A daemon and its PID file

A daemon that accepts connections has made its PID file and written its own pid into it;
it removes the file when `on_stop` has returned, and makes no other (`Keeper.Sound`).
`Keeper` is what its history says about the file. In a run in which nobody unlinks the
file of another running process, the path names the file as long as the daemon holds it
and runs (`Kept`).
-/

namespace Sockd

open Rust Effects Effects.Prog Effects.System

variable {S : Type}

/-! ## What a PID file says -/

theorem dropWhile_digits {cs : List Char} (h : ∀ c ∈ cs, c.isDigit = true) :
    cs.dropWhile isWhitespace = cs := by
  cases cs with
  | nil => rfl
  | cons c cs =>
    have hc : isWhitespace c = false := by
      have hd := h c List.mem_cons_self
      simp only [Char.isDigit, Bool.and_eq_true, decide_eq_true_eq, ge_iff_le] at hd
      obtain ⟨hlo, hhi⟩ := hd
      have hlo' : 48 ≤ c.toNat := hlo
      have hhi' : c.toNat ≤ 57 := hhi
      simp only [isWhitespace, Bool.or_eq_false_iff, Bool.and_eq_false_iff, decide_eq_false_iff_not]
      omega
    rw [List.dropWhile_cons, if_neg (by rw [hc]; exact Bool.false_ne_true)]

/-- The line end is trimmed. -/
theorem trim_digits {cs : List Char} (h : ∀ c ∈ cs, c.isDigit = true) (hne : cs ≠ []) :
    trim (cs ++ ['\n']) = cs := by
  have hfront : (cs ++ ['\n']).dropWhile isWhitespace = cs ++ ['\n'] := by
    cases cs with
    | nil => exact absurd rfl hne
    | cons c cs =>
      have hc : [c].dropWhile isWhitespace = [c] :=
        dropWhile_digits fun x hx => h x (by simp_all)
      rw [List.dropWhile_cons] at hc
      split at hc
      next => cases hc
      next hw => rw [List.cons_append, List.dropWhile_cons, if_neg hw]
  have hback : (cs ++ ['\n']).reverse.dropWhile isWhitespace = cs.reverse := by
    rw [List.reverse_append, List.reverse_singleton, List.singleton_append, List.dropWhile_cons,
      if_pos (by decide)]
    exact dropWhile_digits fun c hc => h c (List.mem_reverse.mp hc)
  rw [trim, hfront, hback, List.reverse_reverse]

/-- A written pid reads back as itself. -/
theorem pidOfBytes_pidDigits (pid : UInt32) : pidOfBytes (pidDigits pid ++ newline) = some pid := by
  have hdigits : ∀ c ∈ Nat.toDigits 10 pid.toNat, c.isDigit = true :=
    fun c hc => Bytes.isDigit_of_mem_toDigits hc
  have htrim := trim_digits hdigits (Bytes.toDigits_ne_nil _)
  rw [pidOfBytes, pidDigits, newline, Bytes.encode, Bytes.encode, ← List.flatMap_append,
    ← Bytes.encode, Bytes.decode?_encode, Option.bind_some,
    pidOfText, htrim, parseU32]
  · have hle : pid.toNat ≤ parseU32.u32MaxNat := Nat.le_sub_one_of_lt pid.toNat_lt
    rw [Bytes.parseDigits_toDigits]
    show (if pid.toNat ≤ parseU32.u32MaxNat then _ else _) = _
    rw [if_pos hle, UInt32.ofNat_toNat]
  · intro rest heq
    have hc := hdigits '+' (by rw [heq]; exact List.mem_cons_self)
    cases hc

/-! ## What a history says -/

/-- What a daemon has done about the PID file `path`. -/
structure Keeper where
  /-- The pid it was told. -/
  pid : Option UInt32 := none
  /-- The file it made there and has not removed, and what it wrote into it. -/
  held : Option (Nat × Bytes) := none
  /-- The path was found to name something else while the file was held. -/
  lost : Bool := false
  /-- It made a file there after it had accepted a connection. -/
  late : Bool := false
  accepting : Bool := false
  stopped : Bool := false

namespace Keeper

/-- Bytes are added to the file `f`. -/
def appended (f : Nat) (d : Bytes) (x : Nat × Bytes) : Nat × Bytes :=
  if x.1 = f then (x.1, x.2 ++ d) else x

/-- One more event. -/
def step (path : Path) (m : Keeper) : SysEvent S → Keeper
  | ⟨.processId, pid⟩ => { m with pid := some pid }
  | ⟨.createNew p, .ok f⟩ =>
    { m with held := if p = path ∧ m.accepting = false then some (f, []) else m.held
             late := m.late || (decide (p = path) && m.accepting) }
  | ⟨.writeFile f buf, .ok k⟩ => { m with held := m.held.map (appended f (buf.take k.1)) }
  | ⟨.removeFile p, .ok _⟩ => { m with held := if p = path then none else m.held }
  | ⟨.symlinkMetadata p, .ok .socket⟩ | ⟨.bind p, .ok _⟩ =>
    { m with lost := m.lost || (decide (p = path) && m.held.isSome) }
  | ⟨.accept _, .ok _⟩ => { m with accepting := true }
  | ⟨.onStop _, _⟩ => { m with stopped := true }
  | _ => m

/-- After a history. -/
def of (path : Path) (h : History S) : Keeper := h.foldl (step path) {}

theorem of_append (path : Path) (h : History S) (e : SysEvent S) :
    of path (h ++ [e]) = (of path h).step path e := by
  rw [of, List.foldl_append]
  rfl

/-- It holds its file, which names it. -/
def Holds (m : Keeper) : Prop :=
  ∃ f pid, m.pid = some pid ∧ m.held = some (f, pidDigits pid ++ newline)

/-- It has let go of its file, having stopped. -/
def Released (m : Keeper) : Prop := m.held = none ∧ m.stopped = true

/-- Where a daemon stands: as long as it has connections, it holds its file, or it has
stopped. -/
def Sound (m : Keeper) : Prop :=
  m.lost = true ∨ m.late = false ∧ (m.accepting = true → m.Holds ∨ m.Released)

/-- What one event can do. -/
inductive Change (path : Path) (m : Keeper) : SysEvent S → Keeper → Prop
  | told (pid : UInt32) : Change path m ⟨.processId, pid⟩ { m with pid := some pid }
  | made (p : Path) (f : Nat) : Change path m ⟨.createNew p, .ok f⟩
      { m with held := if p = path ∧ m.accepting = false then some (f, []) else m.held
               late := m.late || (decide (p = path) && m.accepting) }
  | wrote (f : Nat) (buf : Bytes) (k : { k : Nat // k ≤ buf.length }) :
      Change path m ⟨.writeFile f buf, .ok k⟩
        { m with held := m.held.map (appended f (buf.take k.1)) }
  | removed (p : Path) (u : Unit) : Change path m ⟨.removeFile p, .ok u⟩
      { m with held := if p = path then none else m.held }
  | found (p : Path) : Change path m ⟨.symlinkMetadata p, .ok .socket⟩
      { m with lost := m.lost || (decide (p = path) && m.held.isSome) }
  | bound (p : Path) (l : Nat) : Change path m ⟨.bind p, .ok l⟩
      { m with lost := m.lost || (decide (p = path) && m.held.isSome) }
  | accepted (l : Nat) (s : Stream) : Change path m ⟨.accept l, .ok s⟩ { m with accepting := true }
  | stopped (s : S) (r : CallbackResult Unit) : Change path m ⟨.onStop s, r⟩
      { m with stopped := true }
  | other (e : SysEvent S) : Change path m e m

theorem change (path : Path) (m : Keeper) (e : SysEvent S) : Change path m e (m.step path e) := by
  unfold step
  split
  next pid => exact .told pid
  next p f => exact .made p f
  next f buf k => exact .wrote f buf k
  next p u => exact .removed p u
  next p => exact .found p
  next p l => exact .bound p l
  next l s => exact .accepted l s
  next s r => exact .stopped s r
  next => exact .other e

section Step

variable {path : Path} {m : Keeper} {h : History S}

/-- Another path does not matter. -/
theorem step_createNew_ne {p : Path} {f : Nat} (hne : p ≠ path) :
    m.step path (⟨.createNew p, .ok f⟩ : SysEvent S) = m := by
  show { m with held := if p = path ∧ m.accepting = false then some (f, []) else m.held
                late := m.late || (decide (p = path) && m.accepting) } = m
  rw [if_neg fun h => hne h.1, decide_eq_false hne, Bool.false_and, Bool.or_false]

theorem step_removeFile_ne {p : Path} {u : Unit} (hne : p ≠ path) :
    m.step path (⟨.removeFile p, .ok u⟩ : SysEvent S) = m := by
  show { m with held := if p = path then none else m.held } = m
  rw [if_neg hne]

theorem step_found_ne {p : Path} (hne : p ≠ path) :
    m.step path (⟨.symlinkMetadata p, .ok .socket⟩ : SysEvent S) = m := by
  show { m with lost := m.lost || (decide (p = path) && m.held.isSome) } = m
  rw [decide_eq_false hne, Bool.false_and, Bool.or_false]

theorem step_bind_ne {p : Path} {l : Nat} (hne : p ≠ path) :
    m.step path (⟨.bind p, .ok l⟩ : SysEvent S) = m := by
  show { m with lost := m.lost || (decide (p = path) && m.held.isSome) } = m
  rw [decide_eq_false hne, Bool.false_and, Bool.or_false]

/-- What every event keeps. -/
theorem foldl_keeps {P : Keeper → Prop}
    (hP : ∀ (m : Keeper) (e : SysEvent S), P m → P (m.step path e))
    (hm : P m) : P (h.foldl (step path) m) := by
  induction h generalizing m with
  | nil => exact hm
  | cons e h ih => exact ih (hP m e hm)

theorem lost_step (m : Keeper) (e : SysEvent S) (hm : m.lost = true) :
    (m.step path e).lost = true := by
  have hchange := change path m e
  generalize m.step path e = m' at hchange
  cases hchange with
  | found p | bound p l => simp only [hm, Bool.true_or]
  | _ => exact hm

theorem accepting_step (m : Keeper) (e : SysEvent S) (hm : m.accepting = true) :
    (m.step path e).accepting = true := by
  have hchange := change path m e
  generalize m.step path e = m' at hchange
  cases hchange with
  | accepted l s => rfl
  | _ => exact hm

theorem stopped_step (m : Keeper) (e : SysEvent S) (hm : m.stopped = true) :
    (m.step path e).stopped = true := by
  have hchange := change path m e
  generalize m.step path e = m' at hchange
  cases hchange with
  | stopped s r => rfl
  | _ => exact hm

/-- Whoever has accepted a connection. -/
theorem accepting_of_mem {l : Nat} {s : Stream} (hmem : ⟨.accept l, .ok s⟩ ∈ h) :
    (of path h).accepting = true := by
  obtain ⟨h₁, h₂, rfl⟩ := List.append_of_mem hmem
  rw [of, List.foldl_append, List.foldl_cons]
  exact foldl_keeps (P := fun m => m.accepting = true) accepting_step rfl

/-- Whoever has called `on_stop`. -/
theorem stopped_of_mem {s : S} {r : CallbackResult Unit} (hmem : ⟨.onStop s, r⟩ ∈ h) :
    (h.foldl (step path) m).stopped = true := by
  obtain ⟨h₁, h₂, rfl⟩ := List.append_of_mem hmem
  rw [List.foldl_append, List.foldl_cons]
  exact foldl_keeps (P := fun m => m.stopped = true) stopped_step rfl

theorem mem_of_stopped (hm : (of path h).stopped = true) : ∃ s r, ⟨.onStop s, r⟩ ∈ h := by
  induction h using List.reverseRecOn with
  | nil => cases hm
  | append_singleton h e ih =>
    have hlast : (of path h).stopped = true ∨ ∃ s r, e = ⟨.onStop s, r⟩ := by
      rw [of_append] at hm
      have hchange := change path (of path h) e
      generalize (of path h).step path e = m' at hchange hm
      cases hchange with
      | stopped s r => exact .inr ⟨s, r, rfl⟩
      | _ => exact .inl hm
    rcases hlast with hm | ⟨s, r, rfl⟩
    · obtain ⟨s, r, hmem⟩ := ih hm
      exact ⟨s, r, List.mem_append_left _ hmem⟩
    · exact ⟨s, r, by simp⟩

/-- Once it has accepted a connection, it holds the file it held, or none. -/
theorem held_step (m : Keeper) (e : SysEvent S) (hm : m.accepting = true) :
    (m.step path e).held = none ∨ (m.step path e).held.map Prod.fst = m.held.map Prod.fst := by
  have hchange := change path m e
  generalize m.step path e = m' at hchange
  cases hchange with
  | made p f =>
    refine .inr ?_
    dsimp only
    rw [if_neg (by rw [hm]; exact fun h => nomatch h.2)]
  | wrote f buf k =>
    refine .inr ?_
    dsimp only
    rw [Option.map_map]
    congr 1
    funext x
    show (appended f (buf.take k.1) x).1 = x.1
    unfold appended
    split <;> rfl
  | removed p u =>
    dsimp only
    split
    next => exact .inl rfl
    next => exact .inr rfl
  | _ => exact .inr rfl

theorem held_foldl (hm : m.accepting = true) :
    (h.foldl (step path) m).held = none ∨
      (h.foldl (step path) m).held.map Prod.fst = m.held.map Prod.fst := by
  induction h using List.reverseRecOn with
  | nil => exact .inr rfl
  | append_singleton h e ih =>
    rw [List.foldl_append, List.foldl_cons, List.foldl_nil]
    have hacc : (h.foldl (step path) m).accepting = true :=
      foldl_keeps (P := fun m => m.accepting = true) accepting_step hm
    rcases held_step _ e hacc with hnone | hsame
    · exact .inl hnone
    · rcases ih with hnone | hold
      · rw [hnone, Option.map_none] at hsame
        exact .inl (Option.map_eq_none_iff.mp hsame)
      · exact .inr (hsame.trans hold)

end Step

/-! ## `claim` -/

section Claim

variable {path : Path} {m : Keeper} {h : History S}

/-- What is written into the file that was made last. -/
theorem foldl_writing {f : Nat} {full d : Bytes} {x : Bytes} {t : History S}
    (hw : Writing (Fs.fileWriter f) full t d) (hm : m.held = some (f, x)) :
    t.foldl (step path) m = { m with held := some (f, x ++ d) } := by
  induction hw with
  | nil =>
    rw [List.foldl_nil, List.append_nil, ← hm]
  | @write t d buf b _ _ _ ih =>
    rw [List.foldl_append, ih, List.foldl_cons, List.foldl_nil]
    cases b with
    | error err =>
      show _ = { m with held := some (f, x ++ (d ++ [])) }
      rw [List.append_nil]
      rfl
    | ok k =>
      show { m with held := some (appended f (buf.take k.1) (f, x ++ d)) } = _
      rw [appended, if_pos rfl, List.append_assoc]
      rfl

/-- `write_pid` leaves the pid in the file. -/
theorem writePid_held {f : Nat} (hm : m.held = some (f, []))
    (h₀ : Returns (PidGuard.writePid f : SysTry S Unit).run h (.ok ())) :
    ∃ pid, h.foldl (step path) m =
      { m with pid := some pid, held := some (f, pidDigits pid ++ newline) } := by
  obtain ⟨u, v, pid, rfl, hpid, hrest⟩ := Try.returns_bind_ok h₀
  obtain ⟨v, w, _, rfl, hdigits, hrest⟩ := Try.returns_bind_ok hrest
  obtain ⟨w, x, _, rfl, hline, hflush⟩ := Try.returns_bind_ok hrest
  refine ⟨pid, ?_⟩
  have hwrites : ∀ {buf : Bytes} {t : History S},
      Returns (((Fs.fileWriter f).writeAll buf).mapErr Error.io : SysTry S Unit).run t (.ok ()) →
        Writing (Fs.fileWriter f) buf t buf := by
    intro buf t ht
    obtain ⟨t₁, t₂, r, rfl, hwrite, hret⟩ := Prog.returns_bind_iff.mp ht
    obtain ⟨rfl, hr⟩ := returns_ret_iff.mp hret
    obtain ⟨d, hd, hres⟩ := (writeAll_spec (Fs.fileWriter f) buf).returns hwrite
    cases r with
    | error err => cases hr
    | ok u =>
      obtain rfl : d = buf := hres
      rw [Spec.foldl_record, List.nil_append] at hd
      rwa [List.append_nil]
  obtain ⟨a, _, rfl, hasked⟩ := returns_call_iff.mp (Try.returns_lift_iff.mp hpid)
  obtain ⟨rfl, rfl⟩ := returns_ret_iff.mp hasked
  obtain ⟨rfl, -⟩ := returns_ret_iff.mp hflush
  have htold : (m.step path (⟨.processId, a⟩ : SysEvent S)).held = some (f, []) := hm
  rw [List.append_nil, List.foldl_append, List.foldl_append, List.foldl_cons, List.foldl_nil,
    foldl_writing (hwrites hdigits) htold, foldl_writing (hwrites hline) rfl]
  rfl

/-- Before it makes the file, `claim` changes nothing that counts. -/
theorem reclaim_held (hr : ∃ r, Returns (PidGuard.reclaim path : SysTry S Unit).run h r) :
    h.foldl (step path) {} = {} := by
  obtain ⟨r, hr⟩ := hr
  have hcalls : AllCalls (fun op : Op S => LookOp path op ∨ op = .pathExists path ∨
      op = .removeFile path) (PidGuard.reclaim path : SysTry S Unit).run :=
    PidGuard.allCalls_reclaim_of (.inr (.inl rfl)) (fun _ h => .inl h) (.inr (.inr rfl))
  refine (Spec.keep (M := step path) (I := fun m => m = {}) hcalls ?_ rfl).returns hr
  intro m op b hop hm
  subst hm
  rcases hop with hop | rfl | rfl
  · cases op <;> first | rfl | exact hop.elim
  · rfl
  · cases b with
    | error err => rfl
    | ok u =>
      show ({ held := if path = path then none else none } : Keeper) = {}
      rw [if_pos rfl]

theorem attempts_held {n : Nat} {guard : PidGuard}
    (h₀ : Returns (PidGuard.attempts path n : SysTry S PidGuard).run h (.ok guard)) :
    ∃ f pid, h.foldl (step path) {} =
      { pid := some pid, held := some (f, pidDigits pid ++ newline) } := by
  induction n generalizing h with
  | zero =>
    obtain ⟨_, _, _, -, -, hfail⟩ := Try.returns_bind_ok h₀
    cases (returns_ret_iff.mp hfail).2
  | succ n ih =>
    obtain ⟨u, v, _, rfl, hreclaim, hcreate⟩ := Try.returns_bind_ok h₀
    obtain ⟨v, w, created, rfl, hcall, hrest⟩ := Try.returns_bind_ok hcreate
    rw [List.foldl_append, reclaim_held ⟨_, hreclaim⟩]
    obtain ⟨a, _, rfl, hcreated⟩ := returns_call_iff.mp (Try.returns_attempt_iff.mp hcall)
    obtain ⟨rfl, rfl⟩ := returns_ret_iff.mp hcreated
    cases a with
    | ok f =>
      obtain ⟨w, x, _, rfl, hwrite, hdone⟩ := Try.returns_bind_ok hrest
      obtain ⟨rfl, -⟩ := returns_ret_iff.mp hdone
      have hmade : step path {} (⟨.createNew path, .ok f⟩ : SysEvent S) =
          { held := some (f, []) } := by
        show ({ held := if path = path ∧ false = false then some (f, []) else none
                late := false || (decide (path = path) && false) } : Keeper) = _
        rw [if_pos ⟨rfl, rfl⟩, Bool.and_false]
        rfl
      rw [List.append_nil, List.singleton_append, List.foldl_cons, hmade]
      have hwritten : ∃ pid, w.foldl (step path) { held := some (f, []) } =
          { pid := some pid, held := some (f, pidDigits pid ++ newline) } :=
        writePid_held rfl hwrite
      obtain ⟨pid, hpid⟩ := hwritten
      exact ⟨f, pid, hpid⟩
    | error err =>
      have hrest : Returns (Try.run (if err.kind = .alreadyExists then PidGuard.attempts path n
        else Try.fail (Error.io err) : SysTry S PidGuard)) w (.ok guard) := hrest
      rw [Try.run_ite] at hrest
      split at hrest
      next =>
        rw [List.singleton_append, List.foldl_cons]
        exact ih hrest
      next => cases (returns_ret_iff.mp hrest).2

/-- The guard goes with a file that names the process. -/
theorem claim_held {guard : PidGuard}
    (h₀ : Returns (PidGuard.claim path : SysTry S PidGuard).run h (.ok guard)) :
    ∃ f pid, h.foldl (step path) {} =
      { pid := some pid, held := some (f, pidDigits pid ++ newline) } := by
  unfold PidGuard.claim at h₀
  cases hparent : path.parent? with
  | none =>
    rw [hparent] at h₀
    exact attempts_held h₀
  | some parent =>
    rw [hparent] at h₀
    obtain ⟨u, v, _, rfl, hcreate, hattempts⟩ := Try.returns_bind_ok h₀
    have hnothing : u.foldl (step path) {} = {} := by
      have hcalls : AllCalls (fun op : Op S => op = .createDirAll parent)
          ((Fs.createDirAll parent).mapErr Error.io : SysTry S Unit).run :=
        Try.allCalls_mapErr ⟨rfl, fun _ => trivial⟩
      refine (Spec.keep (M := step path) (I := fun m => m = {}) hcalls ?_ rfl).returns hcreate
      intro m op b hop hm
      subst hop hm
      rfl
    rw [List.foldl_append, hnothing]
    exact attempts_held hattempts

end Claim

/-! ## The rest of the run -/

section Run

variable {path : Path} {config : DaemonConfig} {m : Keeper}

/-- What the rest of the run leaves of where it began, if the path is not lost. -/
def Since (m m' : Keeper) : Prop :=
  m'.lost = true ∨ ∃ a b, m' = { m with accepting := a, stopped := b }

theorem since_self (m : Keeper) : Since m m := .inr ⟨m.accepting, m.stopped, rfl⟩

/-- A lost path stays lost. -/
theorem since_of_lost {α : Type} {p : Sys S α} {m₀ : Keeper} (hm : m.lost = true) :
    Spec (step path) m p (Since m₀) (fun _ => Since m₀) :=
  (Spec.keep (I := fun m => m.lost = true) (allCalls_any p)
    (fun m op b _ h => lost_step m ⟨op, b⟩ h)
    hm).mono (fun _ h => .inl h) fun _ _ h => .inl h

/-- The calls of a daemon whose socket is elsewhere do not concern the file. -/
theorem since_step {sp : Path} {m₀ : Keeper} {op : Op S} {b : Ans op} (hop : DaemonOp sp op)
    (hne : sp ≠ path) (hm : Since m₀ m) : Since m₀ (m.step path ⟨op, b⟩) := by
  rcases hm with hm | ⟨a, s, rfl⟩
  · exact .inl (lost_step m _ hm)
  refine .inr ?_
  rcases hop with hop | hop | rfl | ⟨st, rfl⟩
  · cases op with
    | accept l => cases b <;> exact ⟨_, _, rfl⟩
    | now | loadFlag | poll | streamNonblocking | read | write | closeStream | onRequest =>
      exact ⟨a, s, rfl⟩
    | _ => exact hop.elim
  · cases op with
    | removeFile p =>
      obtain rfl : p = sp := hop
      refine ⟨a, s, ?_⟩
      cases b with
      | error err => rfl
      | ok u => exact step_removeFile_ne hne
    | symlinkMetadata p =>
      obtain rfl : p = sp := hop
      refine ⟨a, s, ?_⟩
      cases b with
      | error err => rfl
      | ok t =>
        cases t with
        | other => rfl
        | socket => exact step_found_ne hne
    | bind p =>
      obtain rfl : p = sp := hop
      refine ⟨a, s, ?_⟩
      cases b with
      | error err => rfl
      | ok l => exact step_bind_ne hne
    | createDirAll | pathExists | connect | closeStream | closeListener | listenerNonblocking =>
      exact ⟨a, s, rfl⟩
    | _ => exact hop.elim
  · exact ⟨a, s, rfl⟩
  · exact ⟨a, true, rfl⟩

/-- At the path of the file, `socket::bind` fails, or the path is lost. -/
theorem bind_since (hheld : m.held.isSome = true) :
    Spec (step path) m (Socket.bind path : SysTry S Nat).run (Since m)
      (fun r m' => m'.lost = true ∨ (m' = m ∧ ∃ err, r = .error err)) := by
  have hself := since_self m
  -- the two answers that lose it
  have hlost : (m.lost || (decide (path = path) && m.held.isSome)) = true := by
    rw [hheld, decide_eq_true rfl, Bool.and_self, Bool.or_true]
  have hgone : ∀ {α : Type} {p : Sys S (Except Error α)} {n : Keeper}, n.lost = true →
      Spec (step path) n p (Since m)
        (fun r m' => m'.lost = true ∨ (m' = m ∧ ∃ err, r = .error err)) := by
    intro α p n hn
    refine (Spec.keep (I := fun m => m.lost = true) (allCalls_any p)
      (fun m op b _ h => lost_step m ⟨op, b⟩ h) hn).mono (fun _ h => .inl h) fun _ _ h => .inl h
  have hlisten : Spec (step path) m (Socket.listen path : SysTry S Nat).run (Since m)
      (fun r m' => m'.lost = true ∨ (m' = m ∧ ∃ err, r = .error err)) := by
    refine Spec.call hself fun a => ?_
    cases a with
    | error err => exact .ret hself (.inr ⟨rfl, _, rfl⟩)
    | ok l => exact hgone hlost
  have htail : Spec (step path) m (do Socket.reclaim path; Socket.listen path : SysTry S Nat).run
      (Since m) (fun r m' => m'.lost = true ∨ (m' = m ∧ ∃ err, r = .error err)) := by
    refine Spec.call hself fun (there : Bool) => ?_
    cases there with
    | false => exact hlisten
    | true =>
      refine Spec.call hself fun a => ?_
      cases a with
      | error err => exact .ret hself (.inr ⟨rfl, _, rfl⟩)
      | ok t =>
        cases t with
        | socket => exact hgone hlost
        | other => exact .ret hself (.inr ⟨rfl, _, rfl⟩)
  unfold Socket.bind
  split
  next parent hp =>
    refine Spec.call hself fun a => ?_
    cases a with
    | error err => exact .ret hself (.inr ⟨rfl, _, rfl⟩)
    | ok u => exact htail
  next => exact htail

/-- `Daemon::run` with the PID file claimed: the file is left alone. -/
theorem runClaimed_since (hheld : m.held.isSome = true) :
    Spec (step path) m (runClaimed config : SysTry S Unit).run (Since m) (fun _ => Since m) := by
  by_cases hne : config.socketPath = path
  · -- the socket is to be bound where the file is
    have hself := since_self m
    refine Spec.next (R := fun _ m' => m' = m) ?_ ?_
    · refine Spec.call hself fun a => ?_
      cases a with
      | ok s => exact .ret hself rfl
      | error err => exact .ret hself hself
    · intro s m' _ hm'
      subst hm'
      rw [hne]
      refine Spec.attempt (bind_since hheld) ?_
      intro r m' _ hm'
      rcases hm' with hlost | ⟨rfl, err, rfl⟩
      · exact since_of_lost hlost
      · refine Spec.call hself fun a => ?_
        have hstopped : Since m' (m'.step path ⟨.onStop s, a⟩) := .inr ⟨m'.accepting, true, rfl⟩
        cases a <;> exact .ret hstopped hstopped
  · exact Spec.keep allCalls_runClaimed (fun _ _ _ hop hm => since_step hop hne hm) (since_self m)

/-- A run of `Daemon::run` with the PID file claimed that is over has called `on_stop`, if
it accepted a connection. -/
theorem runClaimed_stopped {h : History S} {r : Except Error Unit} (hacc : m.accepting = false)
    (hr : Returns (runClaimed config : SysTry S Unit).run h r) :
    (h.foldl (step path) m).accepting = true → (h.foldl (step path) m).stopped = true := by
  obtain ⟨os, hos, -⟩ := runClaimed_returns hr
  intro ha
  cases hos with
  | start err =>
    rw [show ([⟨.onStart, .error err⟩] : History S).foldl (step path) m = m from rfl, hacc] at ha
    cases ha
  | @bind s hb err r _ => exact stopped_of_mem (s := s) (r := r) (by simp)
  | @served s s' hb hl l result a r _ _ => exact stopped_of_mem (s := s') (r := r) (by simp)

/-- **A daemon and its PID file**, whatever the answers. -/
theorem runDaemon_sound (hp : config.pidFile = some path) :
    Spec (step path) {} (runDaemon config : SysTry S Unit).run Sound (fun _ _ => True) := by
  have hquiet : ∀ m : Keeper, m.late = false → m.accepting = false → Sound m := by
    intro m hlate hacc
    exact .inr ⟨hlate, fun h => by rw [hacc] at h; cases h⟩
  refine Spec.next (R := fun _ m => m = {}) ((Spec.keep (I := fun m => m = {})
    allCalls_installShutdownFlag ?_ rfl).mono ?_ ?_) ?_
  · intro m op b hop hm
    obtain ⟨n, rfl⟩ := hop
    exact hm
  · exact fun m hm => hm ▸ hquiet {} rfl rfl
  · intro r m hm
    cases r with
    | ok u => exact hm
    | error err => trivial
  · intro _ m _ hm
    subst hm
    rw [hp]
    have hclaiming : Spec (step path) {} (PidGuard.claim path : SysTry S PidGuard).run
        (fun m => m.late = false ∧ m.accepting = false) (fun _ _ => True) := by
      refine (Spec.keep PidGuard.allCalls_claim ?_ ⟨rfl, rfl⟩).mono (fun _ h => h)
        fun _ _ _ => trivial
      intro m op b hop hm
      obtain ⟨hlate, hacc⟩ := hm
      cases op with
      | createNew p =>
        cases b with
        | error err => exact ⟨hlate, hacc⟩
        | ok f =>
          have hstays : (m.late || (decide (p = path) && m.accepting)) = false := by
            rw [hlate, hacc, Bool.and_false]
            rfl
          exact ⟨hstays, hacc⟩
      | removeFile p | writeFile f buf => cases b <;> exact ⟨hlate, hacc⟩
      | createDirAll | pathExists | openFile | readFile | processId | kill => exact ⟨hlate, hacc⟩
      | _ => exact hop.elim
    refine Spec.next (R := fun guard m => guard.path = path ∧
      ∃ f pid, m = { pid := some pid, held := some (f, pidDigits pid ++ newline) })
      ⟨fun hr => ?_, fun {tr r} hr => ?_⟩ ?_
    · obtain ⟨hlate, hacc⟩ := hclaiming.always hr
      exact hquiet _ hlate hacc
    · cases r with
      | ok guard => exact ⟨claim_path hr, claim_held hr⟩
      | error err => trivial
    · intro guard m _ hm
      obtain ⟨hguard, f, pid, rfl⟩ := hm
      have hsince : ∀ m', Since { pid := some pid, held := some (f, pidDigits pid ++ newline) } m' →
          Sound m' := by
        intro m' hm'
        rcases hm' with hlost | ⟨a, b, rfl⟩
        · exact .inl hlost
        · exact .inr ⟨rfl, fun _ => .inl ⟨f, pid, rfl, rfl⟩⟩
      refine Spec.bind (R := fun _ m' =>
        Since { pid := some pid, held := some (f, pidDigits pid ++ newline) } m' ∧
          (m'.accepting = true → m'.stopped = true)) ⟨fun hr => ?_, fun hr => ?_⟩ ?_
      · exact hsince _ ((runClaimed_since rfl).always hr)
      · exact ⟨(runClaimed_since rfl).returns hr, runClaimed_stopped rfl hr⟩
      · intro r m' hΦ hm'
        obtain ⟨hm', hstop⟩ := hm'
        -- the guard is dropped
        refine Spec.call hΦ fun a => .ret ?_ trivial
        rw [hguard]
        cases a with
        | error err => exact hΦ
        | ok u =>
          rcases hm' with hlost | ⟨a, b, rfl⟩
          · exact .inl hlost
          · exact .inr ⟨rfl, fun ha => .inr ⟨if_pos rfl, hstop ha⟩⟩

end Run

/-! ## What one event shows -/

section Event

variable {path : Path} {m : Keeper} {e : SysEvent S}

theorem pid_step {pid : UInt32} (hm : (m.step path e).pid = some pid) :
    m.pid = some pid ∨ e = ⟨.processId, pid⟩ := by
  have hchange := change path m e
  generalize m.step path e = m' at hchange hm
  cases hchange with
  | told q =>
    obtain rfl : q = pid := Option.some.inj hm
    exact .inr rfl
  | _ => exact .inl hm

/-- Only these events concern the file. -/
theorem held_other (hcreate : ∀ p f, e ≠ ⟨.createNew p, .ok f⟩)
    (hwrite : ∀ f buf k, e ≠ ⟨.writeFile f buf, .ok k⟩)
    (hremove : ∀ p, e ≠ ⟨.removeFile p, .ok ()⟩) :
    (m.step path e).held = m.held := by
  have hchange := change path m e
  generalize m.step path e = m' at hchange
  cases hchange with
  | made p f => exact absurd rfl (hcreate p f)
  | wrote f buf k => exact absurd rfl (hwrite f buf k)
  | removed p u => exact absurd rfl (hremove p)
  | _ => rfl

/-- What loses the path. -/
theorem lost_inv (hm : (m.step path e).lost = true) :
    m.lost = true ∨ m.held.isSome = true ∧
      (e = ⟨.symlinkMetadata path, .ok .socket⟩ ∨ ∃ l, e = ⟨.bind path, .ok l⟩) := by
  have hsplit : ∀ p, (m.lost || (decide (p = path) && m.held.isSome)) = true →
      m.lost = true ∨ m.held.isSome = true ∧ p = path := by
    intro p h
    rw [Bool.or_eq_true, Bool.and_eq_true, decide_eq_true_eq] at h
    exact h.imp id And.symm
  have hchange := change path m e
  generalize m.step path e = m' at hchange hm
  cases hchange with
  | found p =>
    refine (hsplit p hm).imp id fun h => ⟨h.1, .inl ?_⟩
    rw [h.2]
  | bound p l =>
    refine (hsplit p hm).imp id fun h => ⟨h.1, .inr ⟨l, ?_⟩⟩
    rw [h.2]
  | _ => exact .inl hm

end Event

end Keeper

/-! ## On the host -/

/-- What the host has of the PID file of the daemon `d`. -/
structure Kept (path : Path) (d : Nat) (w : Os) (m : Keeper) : Prop where
  file_lt : ∀ f, w.nodes path = some (.file f) → f < w.nextFile
  pid : w.Running d → ∀ pid, m.pid = some pid → (w.procs d).pid = pid
  held : ∀ f x, m.held = some (f, x) →
    f < w.nextFile ∧ w.inodes f = { content := x, creator := some d }
  /-- The path names the file that a running daemon holds, -/
  named : w.Running d → ∀ f x, m.held = some (f, x) → w.nodes path = some (.file f)
  /-- and no other of its files. -/
  own : ∀ f, w.nodes path = some (.file f) → (w.inodes f).creator = some d →
    ∃ x, m.held = some (f, x)
  lost : m.lost = false

namespace Kept

variable {path : Path} {d i : Nat} {w w' : Os} {m : Keeper} {e : SysEvent S}

theorem initial (hw : w.Initial) : Kept path d w {} where
  file_lt := fun f hf => hw.file_lt path f hf
  pid := fun _ _ hp => nomatch hp
  held := fun _ _ hf => nomatch hf
  named := fun _ _ _ hf => nomatch hf
  own := fun f _ hc => by rw [hw.creator f] at hc; cases hc
  lost := rfl

/-- Somebody's call of `create_new`, other than this daemon's at the path. -/
theorem create (h : Kept path d w m) {p : Path} (hnone : w.nodes p = none)
    (hnodes : w'.nodes = Function.update w.nodes p (some (.file w.nextFile)))
    (hinodes : w'.inodes = Function.update w.inodes w.nextFile { creator := some i })
    (hnext : w'.nextFile = w.nextFile + 1) (hrun : w'.Running d → w.Running d)
    (hpid : w'.Running d → ∀ pid, m.pid = some pid → (w'.procs d).pid = pid)
    (hother : i ≠ d ∨ path ≠ p) : Kept path d w' m where
  file_lt := by
    intro f hf
    rw [hnodes] at hf
    rw [hnext]
    by_cases hp : path = p
    · rw [hp, Function.update_self] at hf
      cases hf
      exact Nat.lt_succ_self _
    · rw [Function.update_of_ne hp] at hf
      exact Nat.lt_succ_of_lt (h.file_lt f hf)
  pid := hpid
  held := by
    intro f x hf
    obtain ⟨hlt, hfile⟩ := h.held f x hf
    rw [hnext, hinodes, Function.update_of_ne (Nat.ne_of_lt hlt)]
    exact ⟨Nat.lt_succ_of_lt hlt, hfile⟩
  named := by
    intro hr f x hf
    have hthere := h.named (hrun hr) f x hf
    have hp : path ≠ p := fun hp => by rw [hp, hnone] at hthere; cases hthere
    rw [hnodes, Function.update_of_ne hp]
    exact hthere
  own := by
    intro f hf hc
    rw [hnodes] at hf
    rw [hinodes] at hc
    by_cases hp : path = p
    · -- the new file is another process's
      rw [hp, Function.update_self] at hf
      cases hf
      rw [Function.update_self] at hc
      exact absurd hp (hother.resolve_left (not_not.mpr (Option.some.inj hc)))
    · rw [Function.update_of_ne hp] at hf
      rw [Function.update_of_ne (Nat.ne_of_lt (h.file_lt f hf))] at hc
      exact h.own f hf hc
  lost := h.lost

/-- Bytes are written into a file. -/
theorem write (h : Kept path d w m) {m' : Keeper} {f : Nat} {x : Bytes}
    (hcreator : (w.inodes f).creator = some i) (hnodes : w'.nodes = w.nodes)
    (hinodes : w'.inodes = Function.update w.inodes f
      { w.inodes f with content := (w.inodes f).content ++ x })
    (hnext : w'.nextFile = w.nextFile) (hrun : w'.Running d → w.Running d)
    (hpid : w'.Running d → ∀ pid, m'.pid = some pid → (w'.procs d).pid = pid)
    (hheld : m'.held = m.held.map (Keeper.appended f x) ∨ i ≠ d ∧ m'.held = m.held)
    (hlost : m'.lost = false) : Kept path d w' m' := by
  have hcreators : ∀ g, (w'.inodes g).creator = (w.inodes g).creator := by
    intro g
    rw [hinodes]
    by_cases hg : g = f
    · rw [hg, Function.update_self]
    · rw [Function.update_of_ne hg]
  -- the file that is held is the same one, with the bytes that were written into it
  have hback : ∀ g y, m'.held = some (g, y) → ∃ y₀, m.held = some (g, y₀) ∧
      w'.inodes g = { content := y, creator := some d } := by
    intro g y hg
    rcases hheld with hheld | ⟨hne, hheld⟩
    · rw [hheld] at hg
      obtain ⟨⟨g₀, y₀⟩, hg₀, happ⟩ := Option.map_eq_some_iff.mp hg
      obtain ⟨-, hfile⟩ := h.held g₀ y₀ hg₀
      unfold Keeper.appended at happ
      split at happ
      next heq =>
        obtain rfl : g₀ = f := heq
        cases happ
        refine ⟨y₀, hg₀, ?_⟩
        rw [hinodes, Function.update_self, hfile]
      next hgf =>
        cases happ
        refine ⟨y, hg₀, ?_⟩
        rw [hinodes, Function.update_of_ne hgf, hfile]
    · obtain ⟨-, hfile⟩ := h.held g y (hheld ▸ hg)
      have hgf : g ≠ f := by
        intro hgf
        rw [← hgf, hfile] at hcreator
        exact hne (Option.some.inj hcreator).symm
      refine ⟨y, hheld ▸ hg, ?_⟩
      rw [hinodes, Function.update_of_ne hgf, hfile]
  refine ⟨by rw [hnodes, hnext]; exact h.file_lt, hpid, ?_, ?_, ?_, hlost⟩
  · intro g y hg
    obtain ⟨y₀, hg₀, hfile⟩ := hback g y hg
    rw [hnext]
    exact ⟨(h.held g y₀ hg₀).1, hfile⟩
  · intro hr g y hg
    obtain ⟨y₀, hg₀, -⟩ := hback g y hg
    rw [hnodes]
    exact h.named (hrun hr) g y₀ hg₀
  · intro g hg hc
    rw [hcreators] at hc
    obtain ⟨y, hy⟩ := h.own g (hnodes ▸ hg) hc
    rcases hheld with hheld | ⟨-, hheld⟩
    · rw [hheld, hy, Option.map_some, Keeper.appended]
      split <;> exact ⟨_, rfl⟩
    · exact ⟨y, hheld.trans hy⟩

/-- A name is taken away, or given to something that is no file. -/
theorem rename (h : Kept path d w m) {m' : Keeper} {p : Path} {node : Option Node}
    (hnodes : w'.nodes = Function.update w.nodes p node) (hnode : ∀ f, node ≠ some (.file f))
    (hinodes : w'.inodes = w.inodes) (hnext : w'.nextFile = w.nextFile)
    (hrun : w'.Running d → w.Running d)
    (hpid : w'.Running d → ∀ pid, m'.pid = some pid → (w'.procs d).pid = pid)
    (hheld : m'.held = none ∧ path = p ∨
      m'.held = m.held ∧ (w.Running d → m.held.isSome = true → path ≠ p))
    (hlost : m'.lost = false) : Kept path d w' m' where
  file_lt := by
    intro f hf
    rw [hnodes] at hf
    rw [hnext]
    by_cases hp : path = p
    · rw [hp, Function.update_self] at hf
      exact absurd hf (hnode f)
    · rw [Function.update_of_ne hp] at hf
      exact h.file_lt f hf
  pid := hpid
  held := by
    intro f x hf
    rcases hheld with ⟨hnone, -⟩ | ⟨hsame, -⟩
    · rw [hnone] at hf
      cases hf
    · rw [hnext, hinodes]
      exact h.held f x (hsame ▸ hf)
  named := by
    intro hr f x hf
    rcases hheld with ⟨hnone, -⟩ | ⟨hsame, hne⟩
    · rw [hnone] at hf
      cases hf
    · rw [hsame] at hf
      rw [hnodes, Function.update_of_ne (hne (hrun hr) (by rw [hf]; rfl))]
      exact h.named (hrun hr) f x hf
  own := by
    intro f hf hc
    rw [hnodes] at hf
    rw [hinodes] at hc
    by_cases hp : path = p
    · rw [hp, Function.update_self] at hf
      exact absurd hf (hnode f)
    · rw [Function.update_of_ne hp] at hf
      rcases hheld with ⟨-, heq⟩ | ⟨hsame, -⟩
      · exact absurd heq hp
      · rw [hsame]
        exact h.own f hf hc
  lost := hlost

/-- A step that changes neither names nor files. -/
theorem frame (h : Kept path d w m) {m' : Keeper} (hnodes : w'.nodes = w.nodes)
    (hinodes : w'.inodes = w.inodes) (hnext : w'.nextFile = w.nextFile)
    (hrun : w'.Running d → w.Running d ∨ m.held = none) (hheld : m'.held = m.held)
    (hpid : w'.Running d → ∀ pid, m'.pid = some pid → (w'.procs d).pid = pid)
    (hlost : m'.lost = false) : Kept path d w' m' where
  file_lt := by rw [hnodes, hnext]; exact h.file_lt
  pid := hpid
  held := by rw [hinodes, hnext, hheld]; exact h.held
  named := by
    intro hr f x hf
    rw [hheld] at hf
    rcases hrun hr with hr | hnone
    · rw [hnodes]
      exact h.named hr f x hf
    · rw [hnone] at hf
      cases hf
  own := by rw [hnodes, hinodes, hheld]; exact h.own
  lost := hlost

/-- The path is not free while the daemon runs and holds its file. -/
theorem not_free (h : Kept path d w m) (hr : w.Running d) (hheld : m.held.isSome = true) :
    w.nodes path ≠ none := by
  obtain ⟨⟨f, x⟩, hf⟩ := Option.isSome_iff_exists.mp hheld
  rw [h.named hr f x hf]
  exact Option.some_ne_none _

/-- A call of another process, which does not unlink the file of this one. -/
theorem act_other (h : Kept path d w m) (hs : w.act i e = some w') (hi : i ≠ d)
    (hkeep : e = ⟨.removeFile path, .ok ()⟩ → ∀ f, w.nodes path = some (.file f) →
      (w.inodes f).creator = some d → ¬ w.Running d) : Kept path d w' m := by
  have hw : w' = w.after i e := (Os.act_eq_some.mp hs).2.2
  have hrun : w'.Running d → w.Running d := fun hr => (Os.running_after w i e d).mp (hw ▸ hr)
  have hpid : w'.Running d → ∀ pid, m.pid = some pid → (w'.procs d).pid = pid := by
    intro hr pid hp
    rw [hw, Os.procs_after]
    exact h.pid (hrun hr) pid hp
  cases Os.fileStep_act hs with
  | other _ _ _ hnodes hinodes hnext =>
    exact h.frame hnodes hinodes hnext (fun hr => .inl (hrun hr)) rfl hpid h.lost
  | created p _ hnone hnodes hinodes hnext =>
    exact h.create hnone hnodes hinodes hnext hrun hpid (.inl hi)
  | written f buf k _ hcreator hnodes hinodes hnext =>
    exact h.write hcreator hnodes hinodes hnext hrun hpid (.inr ⟨hi, rfl⟩) h.lost
  | removed p he _ hnodes hinodes hnext =>
    refine h.rename hnodes nofun hinodes hnext hrun hpid (.inr ⟨rfl, ?_⟩) h.lost
    intro hr hheld hp
    obtain ⟨⟨f, x⟩, hf⟩ := Option.isSome_iff_exists.mp hheld
    refine hkeep (by rw [hp]; exact he) f (h.named hr f x hf) ?_ hr
    rw [(h.held f x hf).2]
  | bound p l _ hnone hnodes hinodes hnext =>
    refine h.rename hnodes nofun hinodes hnext hrun hpid (.inr ⟨rfl, ?_⟩) h.lost
    exact fun hr hheld hp => h.not_free hr hheld (hp ▸ hnone)

/-- A call of the daemon itself. -/
theorem act_self (h : Kept path d w m) (hs : w.act d e = some w')
    (hsound : (m.step path e).Sound) : Kept path d w' (m.step path e) := by
  obtain ⟨hr, hok, hw⟩ := Os.act_eq_some.mp hs
  have hrun : w'.Running d → w.Running d := fun _ => hr
  have hpid : w'.Running d → ∀ pid, (m.step path e).pid = some pid → (w'.procs d).pid = pid := by
    intro _ pid hp
    rw [hw, Os.procs_after]
    rcases Keeper.pid_step hp with hp | rfl
    · exact h.pid hr pid hp
    · exact beq_iff_eq.mp (hok.resolve_left fun hsp => nomatch hsp)
  -- what it sees at the path is its own file
  have hlost : (m.step path e).lost = false := by
    by_contra hne
    rcases Keeper.lost_inv (Bool.not_eq_false _ ▸ hne) with hold | ⟨hheld, he⟩
    · rw [h.lost] at hold
      cases hold
    · obtain ⟨⟨f, x⟩, hf⟩ := Option.isSome_iff_exists.mp hheld
      have hthere := h.named hr f x hf
      rcases he with rfl | ⟨l, rfl⟩
      · have hans : Os.statAnswer (w.nodes path) (.ok .socket) = true :=
          hok.resolve_left fun hsp => nomatch hsp
        rw [hthere] at hans
        cases hans
      · have hnone := (Os.bind_ok hok).1
        rw [hthere] at hnone
        cases hnone
  have hlate : (m.step path e).late = false :=
    (hsound.resolve_left fun hl => by rw [hlost] at hl; cases hl).1
  cases Os.fileStep_act hs with
  | other hcreate hwrite hremove hnodes hinodes hnext =>
    exact h.frame hnodes hinodes hnext (fun _ => .inl hr)
      (Keeper.held_other hcreate hwrite hremove) hpid hlost
  | created p he hnone hnodes hinodes hnext =>
    subst he
    by_cases hp : p = path
    · subst hp
      -- it has accepted no connection yet
      have hacc : m.accepting = false := by
        have hlate' : (m.late || (decide (p = p) && m.accepting)) = false := hlate
        rw [decide_eq_true rfl, Bool.true_and, Bool.or_eq_false_iff] at hlate'
        exact hlate'.2
      have hheld : (m.step p (⟨.createNew p, .ok w.nextFile⟩ : SysEvent S)).held =
          some (w.nextFile, []) := if_pos ⟨rfl, hacc⟩
      have hfile : w'.nodes p = some (.file w.nextFile) := by rw [hnodes, Function.update_self]
      refine ⟨?_, hpid, ?_, ?_, ?_, hlost⟩
      · intro f hf
        rw [hfile] at hf
        cases hf
        rw [hnext]
        exact Nat.lt_succ_self _
      · intro f x hf
        rw [hheld] at hf
        cases hf
        rw [hnext, hinodes, Function.update_self]
        exact ⟨Nat.lt_succ_self _, rfl⟩
      · intro _ f x hf
        rw [hheld] at hf
        cases hf
        exact hfile
      · intro f hf _
        rw [hfile] at hf
        cases hf
        exact ⟨_, hheld⟩
    · have hsame : m.step path (⟨.createNew p, .ok w.nextFile⟩ : SysEvent S) = m :=
        Keeper.step_createNew_ne hp
      rw [hsame] at hpid ⊢
      exact h.create hnone hnodes hinodes hnext hrun hpid (.inr (Ne.symm hp))
  | written f buf k he hcreator hnodes hinodes hnext =>
    subst he
    exact h.write hcreator hnodes hinodes hnext hrun hpid (.inl rfl) hlost
  | removed p he _ hnodes hinodes hnext =>
    subst he
    refine h.rename hnodes nofun hinodes hnext hrun hpid ?_ hlost
    by_cases hp : p = path
    · exact .inl ⟨if_pos hp, hp.symm⟩
    · exact .inr ⟨if_neg hp, fun _ _ => Ne.symm hp⟩
  | bound p l he hnone hnodes hinodes hnext =>
    subst he
    refine h.rename hnodes nofun hinodes hnext hrun hpid (.inr ⟨rfl, ?_⟩) hlost
    exact fun _ hheld hp => h.not_free hr hheld (hp ▸ hnone)

/-- A step that is nobody's call. -/
theorem outside {o : Os.Outside} (h : Kept path d w m) (ho : w.outside o = some w')
    (hfresh : (w.procs d).status = .absent → m = {}) : Kept path d w' m := by
  obtain ⟨hnodes, hnext, hinodes⟩ := Os.outside_files ho
  refine h.frame hnodes hinodes hnext (fun hr => ?_) rfl (fun hr pid hp => ?_) h.lost
  · by_cases habs : (w.procs d).status = .absent
    · exact .inr (by rw [hfresh habs])
    · exact .inl (Os.running_of_outside ho hr habs).1
  · by_cases habs : (w.procs d).status = .absent
    · rw [hfresh habs] at hp
      cases hp
    · obtain ⟨hr', hsame⟩ := Os.running_of_outside ho hr habs
      rw [hsame]
      exact h.pid hr' pid hp

end Kept

/-! ## Runs -/

section Runs

variable {role : Nat → Role} {path : Path} {w₀ : Os} {ls : List (HostLabel S)} {c : HostConfig S}
  {config : DaemonConfig} {d : Nat}

/-- What the daemon `d` has done about its PID file. -/
def keeper (path : Path) (c : HostConfig S) (d : Nat) : Keeper := Keeper.of path (c.hist d)

/-- Where a daemon stands, in a run. -/
theorem keeper_sound (hrole : role d = .daemon config) (hp : config.pidFile = some path)
    (ht : (role d).Traces (c.hist d)) : (keeper path c d).Sound := by
  rw [hrole] at ht
  obtain ⟨q, hq⟩ := ht
  exact (Keeper.runDaemon_sound hp).always hq

/-- **A daemon keeps its PID file**, in a run in which nobody unlinks the file of another
process that is running. -/
theorem kept_run (h₀ : w₀.Initial) (hrole : role d = .daemon config)
    (hp : config.pidFile = some path)
    (hr : Run (host role) (fun c l => ¬ ForeignUnlink path c l) (.start w₀) ls c) :
    Os.Fresh c ∧ Kept path d c.world (keeper path c d) := by
  refine hr.inv (I := fun c => Os.Fresh c ∧ Kept path d c.world (keeper path c d))
    ⟨fun _ _ => rfl, .initial h₀⟩ ?_
  intro c l c' hI hs hb hforeign
  obtain ⟨hfresh, hkept⟩ := hI
  cases l with
  | outside o =>
    obtain ⟨ho, hh⟩ := step_outside.mp hs
    have hsame : keeper path c' d = keeper path c d := by rw [keeper, hh, keeper]
    refine ⟨hfresh.outside hs, ?_⟩
    rw [hsame]
    refine hkept.outside ho fun habs => ?_
    rw [keeper, hfresh d habs]
    rfl
  | act i e =>
    have hact := (step_act.mp hs).1
    refine ⟨hfresh.act hs, ?_⟩
    by_cases hi : i = d
    · subst hi
      have hstep : keeper path c' i = (keeper path c i).step path e := by
        rw [keeper, hist_act_self hs, Keeper.of_append, keeper]
      rw [hstep]
      refine hkept.act_self hact ?_
      rw [← hstep]
      exact keeper_sound hrole hp (hb i e rfl)
    · have hsame : keeper path c' d = keeper path c d := by
        rw [keeper, hist_act_ne hs (Ne.symm hi), keeper]
      rw [hsame]
      refine hkept.act_other hact hi fun he f hf hc hrun => hforeign ?_
      exact ⟨i, f, d, by rw [he], hf, hc, Ne.symm hi, hrun⟩

end Runs

end Sockd
