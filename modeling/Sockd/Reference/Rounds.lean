import Sockd.Reference.Daemon

/-!
# What the reference daemon does, round by round

`processConnection` of the process is that of the pure model, with the calls that belong to
it (`returns_processConnection`), and a round of the loop goes one of eight ways (`Round`).
-/

namespace Sockd.Reference.Daemon

open C Effects Prog

variable {root : Str} {tr : Trace}

/-- A call and what comes after it. -/
theorem returns_perform {α : Type} {op : DaemonOp} {f : DaemonAns op → Prog daemonSig α} {a : α}
    (h : Returns (perform op >>= f) tr a) : ∃ b t, tr = ⟨op, b⟩ :: t ∧ Returns (f b) t a :=
  returns_call_iff.mp h

/-- A call at the end. -/
theorem returns_perform_last {op : DaemonOp} {b : DaemonAns op} (h : Returns (perform op) tr b) :
    tr = [⟨op, b⟩] := by
  obtain ⟨b', t, rfl, hret⟩ := returns_call_iff.mp h
  obtain ⟨rfl, rfl⟩ := returns_ret_iff.mp hret
  rfl

/-! ## One connection -/

/-- The writes of a reply. -/
def writes : Option (ResponseMsg × Bytes) → Trace
  | none => []
  | some (resp, body) =>
    ⟨.write resp.toMem, ()⟩ :: if body = [] then [] else [⟨.write body, ()⟩]

/-- The directory, when a connection makes the daemon read it. -/
def reads (root : Str) (c : Connection) : Trace :=
  if c.command = some .reload then [⟨.readSkills (skillsDir root), c.dir⟩] else []

/-- What a daemon in this state does with a connection. -/
def conversation (root : Str) (g : Router) (c : Connection) : Trace :=
  ⟨.read, ⟨c.received, c.stack, c.contentBuf⟩⟩ ::
    (reads root c ++ writes (Reference.processConnection g c).reply ++ [⟨.closeClient, ()⟩])

theorem returns_respond {resp : ResponseMsg} {body : Bytes}
    (h : Returns (respond resp body) tr ()) :
    tr = writes (some (resp, body)) ++ [⟨.closeClient, ()⟩] := by
  unfold respond at h
  obtain ⟨_, t, rfl, hrest⟩ := returns_perform h
  obtain ⟨t, u, _, rfl, hcontent, hclose⟩ := returns_bind_iff.mp hrest
  obtain rfl := returns_perform_last hclose
  unfold writeContent at hcontent
  unfold writes
  dsimp only
  split at hcontent
  next hempty =>
    obtain ⟨rfl, -⟩ := returns_ret_iff.mp hcontent
    rw [if_pos hempty]
    rfl
  next hne =>
    obtain rfl := returns_perform_last hcontent
    rw [if_neg hne]
    rfl

/-- The conversation when the directory is not read. -/
theorem conversation_eq {g : Router} {c : Connection} (hreload : c.command ≠ some .reload) :
    conversation root g c = ⟨.read, ⟨c.received, c.stack, c.contentBuf⟩⟩ ::
      (writes (Reference.processConnection g c).reply ++ [⟨.closeClient, ()⟩]) := by
  unfold conversation reads
  rw [if_neg hreload]
  rfl

theorem returns_plain {g g' : Router} (h : Returns (respond (.plain .matched) [] >>= fun _ =>
    (pure g : Prog daemonSig Router)) tr g') :
    tr = writes (some (.plain .matched, [])) ++ [⟨.closeClient, ()⟩] ∧ g' = g := by
  obtain ⟨t, u, _, rfl, hrespond, hret⟩ := returns_bind_iff.mp h
  obtain ⟨rfl, rfl⟩ := returns_ret_iff.mp hret
  rw [List.append_nil]
  exact ⟨returns_respond hrespond, rfl⟩

/-- What a request comes to. -/
theorem processConnection_accepted {g : Router} {c : Connection} {req : RequestMsg}
    (haccepted : c.accepted = some req) :
    Reference.processConnection g c = match req.command? with
      | some command => command.serve g.counted c.dir
      | none => route g.counted c req := by
  have hconnection := processConnection_eq g c
  rw [haccepted] at hconnection
  exact hconnection

/-- The process does with a connection what the pure model says. -/
theorem returns_processConnection {g g' : Router}
    (h : Returns (processConnection root g) tr g') :
    ∃ c, tr = conversation root g c ∧ g' = (Reference.processConnection g c).state := by
  unfold processConnection at h
  obtain ⟨received, t, rfl, hrest⟩ := returns_perform h
  cases haccepted : (received.connection none).accepted with
  | none =>
    rw [haccepted] at hrest
    obtain ⟨_, u, rfl, hret⟩ := returns_perform hrest
    obtain ⟨rfl, rfl⟩ := returns_ret_iff.mp hret
    have hcommand : (received.connection none).command = none := by
      rw [Connection.command, haccepted]
      rfl
    refine ⟨received.connection none, ?_, ?_⟩
    · rw [conversation_eq (by rw [hcommand]; exact nofun), processConnection_eq, haccepted]
      rfl
    · rw [processConnection_eq, haccepted]
  | some req =>
    have hcommand : ∀ dir, (received.connection dir).command = req.command? := by
      intro dir
      show (received.connection none).accepted.bind RequestMsg.command? = _
      rw [haccepted]
      rfl
    have hserved : ∀ dir, Reference.processConnection g (received.connection dir) = _ :=
      fun dir => processConnection_accepted (c := received.connection dir) haccepted
    rw [haccepted] at hrest
    dsimp only at hrest
    cases hreq : req.command? with
    | none =>
      rw [hreq] at hrest hcommand hserved
      dsimp only at hrest hserved
      refine ⟨received.connection none, ?_, ?_⟩
      · rw [conversation_eq (by rw [hcommand]; exact nofun), hserved]
        obtain ⟨t, u, _, rfl, hrespond, hret⟩ := returns_bind_iff.mp hrest
        obtain ⟨rfl, -⟩ := returns_ret_iff.mp hret
        rw [List.append_nil]
        exact congrArg _ (returns_respond hrespond)
      · rw [hserved]
        obtain ⟨t, u, _, rfl, -, hret⟩ := returns_bind_iff.mp hrest
        exact (returns_ret_iff.mp hret).2.symm
    | some command =>
      rw [hreq] at hrest hcommand hserved
      cases command with
      | ping | shutdown =>
        obtain ⟨rfl, rfl⟩ := returns_plain hrest
        refine ⟨received.connection none, ?_, ?_⟩
        · rw [conversation_eq (by rw [hcommand]; exact nofun), hserved]
          rfl
        · rw [hserved]
          rfl
      | reload =>
        obtain ⟨dir, u, rfl, hplain⟩ := returns_perform hrest
        obtain ⟨rfl, rfl⟩ := returns_plain hplain
        have hreload := hserved dir
        refine ⟨received.connection dir, ?_, ?_⟩
        · unfold conversation reads
          rw [if_pos (hcommand dir), hreload]
          rfl
        · rw [hreload]
          rfl

/-! ## One round -/

/-- The ways a round can go. -/
inductive Round (root : Str) (g : Router) (lastActivity : Int) :
    Trace → (Router × Int) ⊕ Router → Prop
  | signalled : Round root g lastActivity [⟨.signalled, true⟩] (.inr { g with running := false })
  | stopped : g.running = false → Round root g lastActivity [⟨.signalled, false⟩] (.inr g)
  | failed : g.running = true →
      Round root g lastActivity [⟨.signalled, false⟩, ⟨.select 30, .failed⟩] (.inr g)
  | interrupted : g.running = true →
      Round root g lastActivity [⟨.signalled, false⟩, ⟨.select 30, .interrupted⟩]
        (.inl (g, lastActivity))
  | idle (now : Int) : g.running = true → now - lastActivity > idleTimeoutSecs →
      Round root g lastActivity [⟨.signalled, false⟩, ⟨.select 30, .timedOut⟩, ⟨.time, now⟩]
        (.inr g)
  | waits (now : Int) : g.running = true → now - lastActivity ≤ idleTimeoutSecs →
      Round root g lastActivity [⟨.signalled, false⟩, ⟨.select 30, .timedOut⟩, ⟨.time, now⟩]
        (.inl (g, lastActivity))
  | refused : g.running = true →
      Round root g lastActivity [⟨.signalled, false⟩, ⟨.select 30, .ready⟩, ⟨.accept, false⟩]
        (.inl (g, lastActivity))
  | serves (now : Int) (c : Connection) : g.running = true →
      Round root g lastActivity (⟨.signalled, false⟩ :: ⟨.select 30, .ready⟩ ::
        ⟨.accept, true⟩ :: ⟨.time, now⟩ :: conversation root g c)
        (.inl ((Reference.processConnection g c).state, now))

/-- A round goes one of these ways. -/
theorem returns_eventRound {g : Router} {lastActivity : Int} {r : (Router × Int) ⊕ Router}
    (h : Returns (eventRound root (g, lastActivity)) tr r) : Round root g lastActivity tr r := by
  unfold eventRound at h
  obtain ⟨signalled, t, rfl, h₁⟩ := returns_perform h
  cases signalled with
  | true =>
    obtain ⟨rfl, rfl⟩ := returns_ret_iff.mp h₁
    exact .signalled
  | false =>
    dsimp only at h₁
    cases hrunning : g.running with
    | false =>
      rw [if_neg Bool.false_ne_true, hrunning, if_neg Bool.false_ne_true] at h₁
      obtain ⟨rfl, rfl⟩ := returns_ret_iff.mp h₁
      exact .stopped hrunning
    | true =>
      rw [if_neg Bool.false_ne_true, hrunning, if_pos rfl] at h₁
      obtain ⟨selected, t, rfl, h₂⟩ := returns_perform h₁
      cases selected with
      | failed =>
        obtain ⟨rfl, rfl⟩ := returns_ret_iff.mp h₂
        exact .failed hrunning
      | interrupted =>
        obtain ⟨rfl, rfl⟩ := returns_ret_iff.mp h₂
        exact .interrupted hrunning
      | timedOut =>
        obtain ⟨now, t, rfl, h₃⟩ := returns_perform h₂
        by_cases hidle : now - lastActivity > idleTimeoutSecs
        · rw [if_pos hidle] at h₃
          obtain ⟨rfl, rfl⟩ := returns_ret_iff.mp h₃
          exact .idle now hrunning hidle
        · rw [if_neg hidle] at h₃
          obtain ⟨rfl, rfl⟩ := returns_ret_iff.mp h₃
          exact .waits now hrunning (Int.not_lt.mp hidle)
      | ready =>
        obtain ⟨accepted, t, rfl, h₃⟩ := returns_perform h₂
        cases accepted with
        | false =>
          obtain ⟨rfl, rfl⟩ := returns_ret_iff.mp h₃
          exact .refused hrunning
        | true =>
          obtain ⟨now, t, rfl, h₄⟩ := returns_perform h₃
          obtain ⟨t, u, g', rfl, hserved, hret⟩ := returns_bind_iff.mp h₄
          obtain ⟨rfl, rfl⟩ := returns_ret_iff.mp hret
          obtain ⟨c, rfl, rfl⟩ := returns_processConnection hserved
          rw [List.append_nil]
          exact .serves now c hrunning

end Sockd.Reference.Daemon
