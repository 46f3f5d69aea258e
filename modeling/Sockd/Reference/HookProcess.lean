import Sockd.Effects.Spec
import Sockd.Effects.Total
import Sockd.Reference.Daemon

/-!
# The hook as a process (`reference/router-client.c`)

`Client` has what the hook computes, given what its calls find. Here are the calls: `main` from
standard input to the exit code, and `connect_to_daemon`, which starts a daemon when there is
none, waits for it, and in the child becomes one. A result that the source does not look at is
not in the answer. A signal can end the process anywhere (a `write` to a daemon that is gone
does), so a run need not come to its end.
-/

namespace Sockd.Reference

open C Effects Prog

/-- What `fork` returned: an error, a pid in the parent, or 0 in the child. -/
inductive Forked
  | failed | parent | child
  deriving DecidableEq, Repr

/-- The calls of the hook. -/
inductive HookOp
  | fread
  | socket
  | connect (path : String)
  | close
  | getenv (name : String)
  | fork
  | setsid
  | freopen (path mode : String)
  | execlp (file : String)
  | execl (path : String)
  | usleep (usecs : Nat)
  | write (bytes : Bytes)
  | read (size : Nat)
  | malloc (size : Nat)
  | free
  | printf (text : Bytes)
  deriving DecidableEq

/-- What each call answers; an `exec` that returns answers `false`, and a `read` that fails
delivers nothing. -/
@[reducible] def HookAns : HookOp → Type
  | .fread => { d : Bytes // d.length ≤ maxInput - 1 }
  | .socket => Bool
  | .connect _ => Bool
  | .close => Unit
  | .getenv _ => Option Str
  | .fork => Forked
  | .setsid => Unit
  | .freopen _ _ => Unit
  | .execlp _ => Bool
  | .execl _ => Bool
  | .usleep _ => Unit
  | .write _ => Unit
  | .read size => { d : Bytes // d.length ≤ size }
  | .malloc _ => Bool
  | .free => Unit
  | .printf _ => Unit

/-- The interface of the hook. -/
@[reducible] def hookSig : Sig := ⟨HookOp, HookAns⟩

namespace HookProcess

/-- Make one call. -/
abbrev perform (op : HookOp) : Prog hookSig (HookAns op) := @Prog.ask hookSig op

/-- What becomes of the process: `main` returns, the child becomes a daemon, or it exits. -/
inductive Fate
  | success
  | became (program : String)
  | failure
  deriving DecidableEq, Repr

/-! ## Connecting -/

/-- `try_connect`: whether there is a connection. -/
def tryConnect : Prog hookSig Bool := do
  if ← perform .socket then
    if ← perform (.connect socketPath) then return true
    else
      perform .close
      return false
  else return false

/-- The child of `connect_to_daemon`. -/
def becomeDaemon : Prog hookSig Fate := do
  perform .setsid
  perform (.freopen "/dev/null" "r")
  perform (.freopen "/tmp/ios-skills-daemon.log" "a")
  perform (.freopen "/dev/null" "w")
  if ← perform (.execlp "router-daemon") then return .became "router-daemon"
  else if ← perform (.execl "/tmp/ios-skills-router-daemon") then
    return .became "/tmp/ios-skills-router-daemon"
  else return .failure

/-- One round of the wait for the daemon. -/
def pollRound (attempt : Nat) : Prog hookSig (Nat ⊕ Bool) :=
  if attempt < 40 then do
    perform (.usleep 50000)
    if ← tryConnect then return .inr true
    else return .inl (attempt + 1)
  else return .inr false

/-- `connect_to_daemon`: whether there is a connection, or what becomes of the child. -/
def connectToDaemon : Prog hookSig (Bool ⊕ Fate) := do
  if ← tryConnect then return .inl true
  else
    match ← perform (.getenv "CLAUDE_PLUGIN_ROOT") with
    | none => return .inl false
    | some _ =>
      match ← perform .fork with
      | .failed => return .inl false
      | .child =>
        let fate ← becomeDaemon
        return .inr fate
      | .parent => .loop pollRound 0 fun connected => .ret (.inl connected)

/-! ## `main` -/

/-- One round of the loop that receives the content. -/
def receiveRound (contentLen : UInt32) (content : Bytes) : Prog hookSig (Bytes ⊕ Bytes) :=
  if (content.length : Int) < int contentLen.toNat then do
    let d ← perform (.read (contentLen.toNat - content.length))
    if d.1 = [] then return .inr content
    else return .inl (content ++ d.1)
  else return .inr content

/-- Print an empty object. -/
def silent : Prog hookSig Fate := do
  perform (.printf (printf "\x7b\x7d"))
  return .success

/-- Close the connection, and print an empty object. -/
def hangUp : Prog hookSig Fate := do
  perform .close
  silent

/-- Receive the content and print it. -/
def deliver (signed : Bool) (resp : ReceivedMsg) : Prog hookSig Fate := do
  if ← perform (.malloc (resp.contentLen + 1).toNat) then
    let content ← .loop (receiveRound resp.contentLen) [] .ret
    perform .close
    perform (.printf outputHead)
    perform (.printf (printJsonEscaped signed content))
    perform (.printf outputTail)
    perform .free
    return .success
  else hangUp

/-- Send the request and print the reply. -/
def ask (signed : Bool) (req : RequestMsg) : Prog hookSig Fate := do
  perform (.write req.toMem)
  let header ← perform (.read responseHeaderSize)
  let resp := ReceivedMsg.ofMem header.1
  if header.1.length < responseHeaderSize ∨ resp.magic ≠ protocolMagic ∨
      resp.version ≠ protocolVersion then hangUp
  else if resp.contentLen = 0 ∨ resp.status ≠ statusMatched then hangUp
  else deliver signed resp

/-- `main`. -/
def main (signed : Bool) : Prog hookSig Fate := do
  let input ← perform .fread
  if input.1 = [] then silent
  else
    let req := buildRequest (Str.ofMem input.1)
    match ← connectToDaemon with
    | .inr fate => return fate
    | .inl false => silent
    | .inl true => ask signed req

/-! ## What a run has found -/

/-- What the hook found, and what it has sent and printed. -/
structure Seen where
  input : Option { d : Bytes // d.length ≤ maxInput - 1 } := none
  connected : Bool := false
  reads : List Bytes := []
  allocated : Bool := false
  written : Bytes := []
  printed : Bytes := []

/-- One call more. -/
def see (s : Seen) : Effects.Event hookSig → Seen
  | ⟨.fread, input⟩ => { s with input := some input }
  | ⟨.connect _, connected⟩ => { s with connected := connected }
  | ⟨.read _, d⟩ => { s with reads := s.reads ++ [d.1] }
  | ⟨.malloc _, allocated⟩ => { s with allocated := allocated }
  | ⟨.write bytes, _⟩ => { s with written := s.written ++ bytes }
  | ⟨.printf text, _⟩ => { s with printed := s.printed ++ text }
  | _ => s

/-- The surroundings that a run met. -/
def Seen.surroundings (s : Seen) : Surroundings where
  input := s.input.getD ⟨[], Nat.zero_le _⟩
  connects := s.connected
  header := ⟨(s.reads.headD []).take responseHeaderSize, List.length_take_le _ _⟩
  allocates := s.allocated
  body := fun round size =>
    ⟨((s.reads.drop 1)[round]?.getD []).take size, List.length_take_le _ _⟩

variable {s : Seen}

theorem sees_perform {α : Type} {op : HookOp} {f : HookAns op → Prog hookSig α}
    {Q : α → Seen → Prop} (hf : ∀ b, Spec see (see s ⟨op, b⟩) (f b) (fun _ => True) Q) :
    Spec see s (perform op >>= f) (fun _ => True) Q := Spec.call trivial hf

theorem sees_tryConnect (hs : s.connected = false) : Spec see s tryConnect (fun _ => True)
    fun connected s' => s' = { s with connected := connected } := by
  have hself : s = { s with connected := false } := by rw [← hs]
  refine sees_perform fun made => ?_
  cases made with
  | false => exact .ret trivial hself
  | true =>
    refine sees_perform fun connected => ?_
    cases connected with
    | true => exact .ret trivial rfl
    | false => exact sees_perform fun _ => .ret trivial rfl

/-- The child prints nothing, and sends nothing. -/
theorem sees_becomeDaemon : Spec see s becomeDaemon (fun _ => True) fun fate s' =>
    fate ≠ .success ∧ s' = s := by
  refine sees_perform fun _ => sees_perform fun _ => sees_perform fun _ => sees_perform fun _ => ?_
  refine sees_perform fun replaced => ?_
  cases replaced with
  | true => exact .ret trivial ⟨nofun, rfl⟩
  | false =>
    refine sees_perform fun replaced => ?_
    cases replaced with
    | true => exact .ret trivial ⟨nofun, rfl⟩
    | false => exact .ret trivial ⟨nofun, rfl⟩

/-- What `connect_to_daemon` leaves behind. -/
def Connecting (s : Seen) : Bool ⊕ Fate → Seen → Prop
  | .inl connected, s' => s' = { s with connected := connected }
  | .inr fate, s' => fate ≠ .success ∧ s' = s

theorem sees_connectToDaemon (hs : s.connected = false) :
    Spec see s connectToDaemon (fun _ => True) (Connecting s) := by
  have hself : s = { s with connected := false } := by rw [← hs]
  refine (sees_tryConnect hs).bind ?_
  rintro connected _ - rfl
  cases connected with
  | true => exact .ret trivial rfl
  | false =>
    rw [← hself]
    refine sees_perform fun root => ?_
    cases root with
    | none => exact .ret trivial hself
    | some root =>
      refine sees_perform fun forked => ?_
      cases forked with
      | failed => exact .ret trivial hself
      | child =>
        refine sees_becomeDaemon.bind ?_
        rintro fate _ - ⟨hfate, rfl⟩
        exact .ret trivial ⟨hfate, rfl⟩
      | parent =>
        refine .loop (fun _ s' => s' = s)
          (fun connected s' => s' = { s with connected := connected }) rfl ?_ ?_
        · rintro attempt _ rfl
          unfold pollRound
          split
          · refine sees_perform fun _ => (sees_tryConnect hs).bind ?_
            rintro connected _ - rfl
            cases connected with
            | true => exact .ret trivial rfl
            | false => exact .ret trivial hself.symm
          · exact .ret trivial hself
        · rintro connected _ - rfl
          exact .ret trivial rfl

/-! ## The content -/

theorem receive_chunks {body : Nat → (size : Nat) → { d : Bytes // d.length ≤ size }}
    {ds : List Bytes} {round left : Nat}
    (hbody : ∀ k size, (body (round + k) size).1 = (ds[k]?.getD []).take size)
    (hne : ∀ d ∈ ds, d ≠ []) (hlen : ds.flatten.length ≤ left) :
    receive body round left = ds.flatten := by
  induction ds generalizing round left with
  | nil =>
    have hnothing : (body round left).1 = [] := by simpa using hbody 0 left
    rw [receive, hnothing]
    split <;> rfl
  | cons d ds ih =>
    rw [List.flatten_cons, List.length_append] at hlen
    have hd : (body round left).1 = d := by
      have hread := hbody 0 left
      rw [Nat.add_zero, List.getElem?_cons_zero, Option.getD_some] at hread
      rw [hread, List.take_of_length_le (by omega)]
    have hpos := List.length_pos_iff.mpr (hne d List.mem_cons_self)
    rw [receive, if_neg (by omega), hd]
    cases d with
    | nil => exact absurd rfl (hne [] List.mem_cons_self)
    | cons b bs =>
      rw [List.flatten_cons]
      dsimp only
      rw [ih (fun k size => ?_) (fun d hd => hne d (List.mem_cons_of_mem _ hd)) (by omega)]
      rw [Nat.add_assoc, Nat.add_comm 1 k, hbody, List.getElem?_cons_succ]

/-- The content so far, and the reads that brought it; the last may have brought nothing. -/
structure SoFar (s : Seen) (contentLen : UInt32) (content : Bytes) (s' : Seen) (ds : List Bytes)
    (last : List Bytes) : Prop where
  seen : s' = { s with reads := s.reads ++ (ds ++ last) }
  whole : content = ds.flatten
  parts : ∀ d ∈ ds, d ≠ []
  within : content.length ≤ (int contentLen.toNat).toNat

/-- A round reads a part of what is left. -/
theorem sees_receiveRound {contentLen : UInt32} {content : Bytes} {s' : Seen} {ds : List Bytes}
    (h : SoFar s contentLen content s' ds []) :
    Spec see s' (receiveRound contentLen content) (fun _ => True)
      (Sum.elim (fun content s'' => ∃ ds, SoFar s contentLen content s'' ds [])
        fun content s'' => ∃ ds last, SoFar s contentLen content s'' ds last ∧
          (last = [] ∨ last = [[]])) := by
  obtain ⟨rfl, rfl, hparts, hwithin⟩ := h
  unfold receiveRound
  split
  next hlt =>
    refine sees_perform fun d => ?_
    have hlen := contentLen.toNat_lt
    have hsize : d.1.length ≤ contentLen.toNat - ds.flatten.length := d.2
    have hint : (int contentLen.toNat).toNat = contentLen.toNat := by
      by_cases hsmall : contentLen.toNat < 2 ^ 31
      · rw [int_eq (by omega) (by omega), Int.toNat_natCast]
      · -- the length is negative as an `int`, and nothing is read
        exfalso
        have hneg : int contentLen.toNat < 0 := by
          unfold int
          rw [Int.bmod_def]
          split <;> omega
        omega
    split
    next hempty =>
      refine .ret trivial ⟨ds, [[]], ⟨?_, rfl, hparts, hwithin⟩, .inr rfl⟩
      show ({ s with reads := s.reads ++ (ds ++ []) ++ [d.1] } : Seen) = _
      rw [hempty, List.append_nil, List.append_assoc]
    next hsome =>
      refine .ret trivial ⟨ds ++ [d.1], ?_, ?_, ?_, ?_⟩
      · show ({ s with reads := s.reads ++ (ds ++ []) ++ [d.1] } : Seen) = _
        rw [List.append_nil, List.append_nil, List.append_assoc]
      · rw [List.flatten_append, List.flatten_singleton]
      · intro d' hd'
        rcases List.mem_append.mp hd' with hd' | hd'
        · exact hparts d' hd'
        · rw [List.mem_singleton.mp hd']
          exact hsome
      · rw [List.length_append, hint]
        rw [hint] at hwithin
        omega
  next hge =>
    exact .ret trivial ⟨ds, [], ⟨rfl, rfl, hparts, hwithin⟩, .inl rfl⟩

/-! ## What is printed -/

/-- What a hook with a connection has printed in the end. -/
structure Delivered (signed : Bool) (s : Seen) (contentLen : UInt32) (s' : Seen) : Prop where
  kept : s'.input = s.input ∧ s'.connected = s.connected ∧ s'.written = s.written
  reads : ∃ ds last, s'.reads = s.reads ++ (ds ++ last) ∧ (∀ d ∈ ds, d ≠ []) ∧
    ds.flatten.length ≤ (int contentLen.toNat).toNat ∧ (last = [] ∨ last = [[]]) ∧
    s'.printed = if s'.allocated = true then output signed ds.flatten else printf "\x7b\x7d"

theorem sees_hangUp (s : Seen) (hs : s.printed = []) :
    Spec see s hangUp (fun _ => True) fun fate s' =>
      fate = .success ∧ s' = { s with printed := printf "\x7b\x7d" } := by
  refine sees_perform fun _ => sees_perform fun _ => .ret trivial ⟨rfl, ?_⟩
  show ({ s with printed := s.printed ++ printf "\x7b\x7d" } : Seen) = _
  rw [hs, List.nil_append]

theorem sees_deliver (signed : Bool) (resp : ReceivedMsg) (s : Seen) (hs : s.printed = []) :
    Spec see s (deliver signed resp) (fun _ => True) fun fate s' =>
      fate = .success ∧ Delivered signed s resp.contentLen s' := by
  refine sees_perform fun allocated => ?_
  cases allocated with
  | false =>
    refine (sees_hangUp { s with allocated := false } hs).mono (fun _ h => h) ?_
    rintro fate _ ⟨rfl, rfl⟩
    refine ⟨rfl, ⟨rfl, rfl, rfl⟩, [], [], (List.append_nil _).symm, nofun, Nat.zero_le _, .inl rfl,
      rfl⟩
  | true =>
    let s₁ : Seen := { s with allocated := true }
    show Spec see s₁ ((Prog.loop (receiveRound resp.contentLen) [] .ret).bind _) _ _
    have hloop : Spec see s₁ (.loop (receiveRound resp.contentLen) [] .ret) (fun _ => True)
        fun content s' => ∃ ds last, SoFar s₁ resp.contentLen content s' ds last ∧
          (last = [] ∨ last = [[]]) := by
      refine .loop (fun content s' => ∃ ds, SoFar s₁ resp.contentLen content s' ds [])
        (fun content s' => ∃ ds last, SoFar s₁ resp.contentLen content s' ds last ∧
          (last = [] ∨ last = [[]])) ?_ ?_ fun content s' _ h => .ret trivial h
      · refine ⟨[], ?_, rfl, nofun, Nat.zero_le _⟩
        rw [List.append_nil, List.append_nil]
      · rintro content s' ⟨ds, h⟩
        exact sees_receiveRound h
    refine hloop.bind ?_
    rintro content _ - ⟨ds, last, ⟨rfl, rfl, hparts, hwithin⟩, hlast⟩
    refine sees_perform fun _ => sees_perform fun _ => sees_perform fun _ => ?_
    refine sees_perform fun _ => sees_perform fun _ => .ret trivial ?_
    refine ⟨rfl, ⟨rfl, rfl, rfl⟩, ds, last, rfl, hparts, hwithin, hlast, ?_⟩
    show s.printed ++ outputHead ++ printJsonEscaped signed ds.flatten ++ outputTail = _
    rw [hs, List.nil_append]
    rfl

/-- The content that was delivered is the one that the hook computes. -/
theorem Delivered.printed {signed : Bool} {contentLen : UInt32} {s' : Seen}
    (h : Delivered signed s contentLen s') {header : Bytes} (hs : s.reads = [header]) :
    s'.printed = if s'.allocated = true then
      output signed (receive s'.surroundings.body 0 (int contentLen.toNat).toNat)
    else printf "\x7b\x7d" := by
  obtain ⟨-, ds, last, hreads, hparts, hwithin, hlast, hprinted⟩ := h
  have hbody : ∀ k size, (s'.surroundings.body (0 + k) size).1 = (ds[k]?.getD []).take size := by
    intro k size
    have hdrop : s'.reads.drop 1 = ds ++ last := by
      rw [hreads, hs]
      rfl
    have hget : (ds ++ last)[k]?.getD [] = ds[k]?.getD [] := by
      rcases hlast with rfl | rfl
      · rw [List.append_nil]
      · rcases Nat.lt_or_ge k ds.length with hlt | hge
        · rw [List.getElem?_append_left hlt]
        · rw [List.getElem?_append_right hge, List.getElem?_eq_none hge]
          cases k - ds.length <;> rfl
    rw [Nat.zero_add]
    show ((s'.reads.drop 1)[k]?.getD []).take size = _
    rw [hdrop, hget]
  rw [receive_chunks hbody hparts hwithin]
  exact hprinted

/-- The bytes that are sent. -/
def sentBytes : Option RequestMsg → Bytes
  | some req => req.toMem
  | none => []

/-- What the process has done when it ends as `fate`: what the hook computes in the
surroundings that it met, or nothing in the child. -/
def Agrees (signed : Bool) (fate : Fate) (s : Seen) : Prop :=
  if fate = .success then
    s.printed = (Reference.main signed s.surroundings).printed ∧
      s.written = sentBytes (Reference.main signed s.surroundings).sent
  else s.printed = [] ∧ s.written = []

theorem agrees_of_content {signed : Bool} {input : { d : Bytes // d.length ≤ maxInput - 1 }}
    (hne : input.1 ≠ []) {s' : Seen} (hinput : s'.input = some input)
    (hconnected : s'.connected = true)
    (hwritten : s'.written = (buildRequest (Str.ofMem input.1)).toMem)
    (hprinted : s'.printed = match s'.surroundings.content with
      | none => printf "\x7b\x7d"
      | some content => output signed content) : Agrees signed .success s' := by
  have henv : s'.surroundings.input = input := by
    show s'.input.getD _ = input
    rw [hinput]
    rfl
  rw [Agrees, if_pos rfl, hprinted, hwritten, Reference.main, henv, if_neg hne,
    if_pos (show s'.surroundings.connects = true from hconnected)]
  cases s'.surroundings.content with
  | none => exact ⟨rfl, rfl⟩
  | some content => exact ⟨rfl, rfl⟩

/-- Without input or without a connection. -/
theorem agrees_silent {signed : Bool} {input : { d : Bytes // d.length ≤ maxInput - 1 }} {s' : Seen}
    (hinput : s'.input = some input) (h : input.1 = [] ∨ s'.connected = false)
    (hprinted : s'.printed = printf "\x7b\x7d") (hwritten : s'.written = []) :
    Agrees signed .success s' := by
  have henv : s'.surroundings.input = input := by
    show s'.input.getD _ = input
    rw [hinput]
    rfl
  have hmain : Reference.main signed s'.surroundings = ⟨none, printf "\x7b\x7d"⟩ := by
    rw [Reference.main, henv]
    split
    next => rfl
    next hne =>
      have hconnects : s'.surroundings.connects ≠ true := by
        rw [show s'.surroundings.connects = false from h.resolve_left hne]
        nofun
      rw [if_neg hconnects]
  rw [Agrees, if_pos rfl, hmain]
  exact ⟨hprinted, hwritten⟩

theorem sees_ask (signed : Bool) {input : { d : Bytes // d.length ≤ maxInput - 1 }}
    (hne : input.1 ≠ []) :
    Spec see { input := some input, connected := true }
      (ask signed (buildRequest (Str.ofMem input.1))) (fun _ => True) (Agrees signed) := by
  refine sees_perform fun _ => sees_perform fun header => ?_
  let s₁ : Seen :=
    { input := some input, connected := true, reads := [] ++ [header.1]
      written := [] ++ (buildRequest (Str.ofMem input.1)).toMem }
  have hheader : ∀ s' : Seen, (∃ rest, s'.reads = header.1 :: rest) →
      s'.surroundings.header.1 = header.1 := by
    rintro s' ⟨rest, hreads⟩
    show (s'.reads.headD []).take responseHeaderSize = header.1
    rw [hreads, List.headD_cons, List.take_of_length_le header.2]
  show Spec see s₁ _ _ _
  dsimp only
  split
  next hrefused =>
    refine (sees_hangUp s₁ rfl).mono (fun _ h => h) ?_
    rintro fate _ ⟨rfl, rfl⟩
    refine agrees_of_content hne rfl rfl (List.nil_append _) ?_
    rw [Surroundings.content, hheader _ ⟨[], rfl⟩, if_pos hrefused]
  next haccepted =>
    split
    next hnothing =>
      refine (sees_hangUp s₁ rfl).mono (fun _ h => h) ?_
      rintro fate _ ⟨rfl, rfl⟩
      refine agrees_of_content hne rfl rfl (List.nil_append _) ?_
      rw [Surroundings.content, hheader _ ⟨[], rfl⟩, if_neg haccepted, if_pos hnothing]
    next hsome =>
      refine (sees_deliver signed _ s₁ rfl).mono (fun _ h => h) ?_
      rintro fate s' ⟨rfl, h⟩
      obtain ⟨hinput, hconnected, hwritten⟩ := h.kept
      refine agrees_of_content hne hinput hconnected (hwritten.trans (List.nil_append _)) ?_
      have hreads : ∃ rest, s'.reads = header.1 :: rest := by
        obtain ⟨-, ds, last, hreads, -⟩ := h
        exact ⟨ds ++ last, hreads⟩
      rw [h.printed rfl, Surroundings.content, hheader s' hreads, if_neg haccepted, if_neg hsome]
      cases hallocated : s'.allocated with
      | true =>
        rw [if_pos rfl, if_pos (show s'.surroundings.allocates = true from hallocated)]
      | false =>
        have hnone : s'.surroundings.allocates ≠ true := by
          rw [show s'.surroundings.allocates = false from hallocated]
          nofun
        rw [if_neg nofun, if_neg hnone]

theorem sees_main (signed : Bool) :
    Spec see {} (main signed) (fun _ => True) (Agrees signed) := by
  refine sees_perform fun input => ?_
  show Spec see { input := some input } _ _ _
  split
  next hempty =>
    exact sees_perform fun _ =>
      .ret trivial (agrees_silent rfl (.inl hempty) (List.nil_append _) rfl)
  next hne =>
    refine (sees_connectToDaemon (s := { input := some input }) rfl).bind ?_
    rintro connection s' - hs'
    match connection with
    | .inr fate =>
      obtain ⟨hfate, rfl⟩ := hs'
      refine .ret trivial ?_
      rw [Agrees, if_neg hfate]
      exact ⟨rfl, rfl⟩
    | .inl false =>
      obtain rfl := hs'
      exact sees_perform fun _ =>
        .ret trivial (agrees_silent rfl (.inr rfl) (List.nil_append _) rfl)
    | .inl true =>
      obtain rfl := hs'
      exact sees_ask signed hne

/-- Whatever its calls answer, a hook that comes to its end has sent and printed what the
hook computes from the input and the reads of its run; the child that it forks to start a daemon
has printed nothing. -/
theorem hook_process_prints (signed : Bool) {tr : List (Effects.Event hookSig)} {fate : Fate}
    (h : Returns (main signed) tr fate) : Agrees signed fate (tr.foldl see {}) :=
  (sees_main signed).returns h

/-- A hook that starts a daemon and is connected to it. -/
def startingTrace : List (Effects.Event hookSig) :=
  [⟨.socket, true⟩, ⟨.connect socketPath, false⟩, ⟨.close, ()⟩,
    ⟨.getenv "CLAUDE_PLUGIN_ROOT", some (Str.lit "/p")⟩, ⟨.fork, .parent⟩, ⟨.usleep 50000, ()⟩,
    ⟨.socket, true⟩, ⟨.connect socketPath, true⟩]

/-- A reply with two bytes of content. -/
def twoBytes : ResponseMsg := { ResponseMsg.plain .matched with skillCount := 1, contentLen := 2 }

/-- The content comes in two pieces. -/
def receivedTrace : List (Effects.Event hookSig) :=
  [⟨.read 2, ⟨[0x41], by decide⟩⟩, ⟨.read 1, ⟨[0x22], by decide⟩⟩]

/-- It is printed. -/
def deliveredTrace : List (Effects.Event hookSig) :=
  ⟨.malloc (twoBytes.contentLen + 1).toNat, true⟩ :: (receivedTrace ++ [⟨.close, ()⟩,
    ⟨.printf outputHead, ()⟩, ⟨.printf (printJsonEscaped true [0x41, 0x22]), ()⟩,
    ⟨.printf outputTail, ()⟩, ⟨.free, ()⟩])

/-- A request with that reply. -/
def answeredTrace (req : RequestMsg) : List (Effects.Event hookSig) :=
  [⟨.write req.toMem, ()⟩,
    ⟨.read responseHeaderSize, ⟨twoBytes.toMem, Nat.le_of_eq twoBytes.length_toMem⟩⟩] ++
  deliveredTrace

theorem returns_perform {α : Type} {op : HookOp} {f : HookAns op → Prog hookSig α}
    {b : HookAns op} {tr : List (Effects.Event hookSig)} {a : α} (h : Returns (f b) tr a) :
    Returns (perform op >>= f) (⟨op, b⟩ :: tr) a := Reach.call h

theorem returns_answeredTrace (req : RequestMsg) :
    Returns (ask true req) (answeredTrace req) .success := by
  have hdeliver : Returns (deliver true (ReceivedMsg.ofMem twoBytes.toMem)) deliveredTrace
      .success := by
    have hreceive : Returns (.loop (receiveRound twoBytes.contentLen) [] .ret) receivedTrace
        [0x41, 0x22] := returns_of_follow 40 (by decide +kernel)
    rw [twoBytes.received_toMem]
    refine returns_perform (Reach.bind hreceive (returns_perform (returns_perform ?_)))
    exact returns_perform (returns_perform (returns_perform .refl))
  refine returns_perform (returns_perform ?_)
  dsimp only
  -- the header came whole, is valid and announces content
  rw [if_neg, if_neg]
  · exact hdeliver
  · rw [twoBytes.received_toMem]
    decide
  · rw [twoBytes.received_toMem, twoBytes.length_toMem]
    decide

theorem hook_process_prints_answered : Agrees true .success
    ((⟨.fread, ⟨[0x78], by decide⟩⟩ ::
      (startingTrace ++ answeredTrace (buildRequest (Str.ofMem [0x78])))).foldl see {}) := by
  refine hook_process_prints true (returns_perform ?_)
  have hconnects : Returns connectToDaemon startingTrace (.inl true) := returns_of_follow 40 rfl
  exact Reach.bind hconnects (returns_answeredTrace _)

/-! ## What a run takes -/

/-- What the hook has open, and what it has spent. -/
structure Spent where
  isOpen : Bool := false
  block : Bool := false
  tries : Nat := 0
  forks : Nat := 0
  /-- Microseconds. -/
  waited : Nat := 0

/-- What a call needs of that, and what it changes. -/
def Spent.use (s : Spent) : Effects.Event hookSig → Option Spent
  | ⟨.socket, made⟩ => if s.isOpen then none else some { s with isOpen := made }
  | ⟨.connect _, _⟩ => if s.isOpen then some { s with tries := s.tries + 1 } else none
  | ⟨.write _, _⟩ | ⟨.read _, _⟩ => if s.isOpen then some s else none
  | ⟨.close, _⟩ => if s.isOpen then some { s with isOpen := false } else none
  | ⟨.malloc _, allocated⟩ => if s.block then none else some { s with block := allocated }
  | ⟨.free, _⟩ => if s.block then some { s with block := false } else none
  | ⟨.fork, _⟩ => if s.isOpen then none else some { s with forks := s.forks + 1 }
  | ⟨.usleep usecs, _⟩ => some { s with waited := s.waited + usecs }
  | _ => some s

/-- What is spent after these calls, if they were all in order. -/
def spend (s : Option Spent) (e : Effects.Event hookSig) : Option Spent := s.bind fun s => s.use e

/-- Every answer is allowed. -/
def Anything : Option Spent → Effects.Event hookSig → Prop := fun _ _ => True

/-- All calls were in order, and no more than this was spent. -/
def Within (isOpen block : Bool) (tries forks waited : Nat) (s : Option Spent) : Prop :=
  ∃ x, s = some x ∧ x.isOpen = isOpen ∧ x.block = block ∧ x.tries ≤ tries ∧ x.forks ≤ forks ∧
    x.waited ≤ waited

instance (op : HookOp) : Nonempty (HookAns op) := by
  cases op with
  | fread | read => exact ⟨⟨[], Nat.zero_le _⟩⟩
  | getenv => exact ⟨none⟩
  | fork => exact ⟨.failed⟩
  | socket | connect | execlp | execl | malloc => exact ⟨false⟩
  | close | setsid | freopen | usleep | write | free | printf => exact ⟨()⟩

theorem ends_perform {α : Type} {op : HookOp} {f : HookAns op → Prog hookSig α} {x : Spent}
    {Q : α → Option Spent → Prop} (hf : ∀ b, Total Anything spend (f b) (x.use ⟨op, b⟩) Q) :
    Total Anything spend (perform op >>= f) (some x) Q := by
  obtain ⟨b⟩ : Nonempty (HookAns op) := inferInstance
  exact .call ⟨b, trivial⟩ fun b _ => hf b

theorem ends_tryConnect {tries forks waited : Nat} {s : Option Spent}
    (hs : Within false false tries forks waited s) :
    Total Anything spend tryConnect s fun connected =>
      Within connected false (tries + 1) forks waited := by
  obtain ⟨⟨_, _, t, f, w⟩, rfl, rfl, rfl, ht, hf, hw⟩ := hs
  dsimp only at ht hf hw
  refine ends_perform fun made => ?_
  cases made with
  | false => exact .ret ⟨_, rfl, rfl, rfl, by dsimp only; omega, hf, hw⟩
  | true =>
    refine ends_perform fun connected => ?_
    cases connected with
    | true => exact .ret ⟨_, rfl, rfl, rfl, by dsimp only; omega, hf, hw⟩
    | false =>
      exact ends_perform fun _ => .ret ⟨_, rfl, rfl, rfl, by dsimp only; omega, hf, hw⟩

/-- The wait for the daemon takes 40 rounds of 50 ms at most. -/
theorem ends_poll {tries forks waited : Nat} {s : Option Spent}
    (hs : Within false false tries forks waited s) :
    Total Anything spend (.loop pollRound 0 .ret) s fun connected =>
      Within connected false (tries + 40) forks (waited + 2000000) := by
  refine .loop_of_measure
    (fun attempt s => attempt ≤ 40 ∧
      Within false false (tries + attempt) forks (waited + 50000 * attempt) s)
    (fun attempt _ => 40 - attempt)
    (fun connected s => Within connected false (tries + 40) forks (waited + 2000000) s)
    ?_ (fun connected s h => .ret h) ⟨Nat.zero_le _, hs⟩
  rintro attempt _ ⟨hattempt, ⟨_, _, t, f, w⟩, rfl, rfl, rfl, ht, hf, hw⟩
  dsimp only at ht hf hw
  unfold pollRound
  split
  next hlt =>
    refine ends_perform fun _ => ?_
    have hnow : Within false false (tries + attempt) forks (waited + 50000 * (attempt + 1))
        (some ⟨false, false, t, f, w + 50000⟩) := by
      refine ⟨_, rfl, rfl, rfl, ht, hf, ?_⟩
      dsimp only
      omega
    refine (ends_tryConnect hnow).bind fun connected s h => ?_
    obtain ⟨x, rfl, hopen, hblock, ht, hf, hw⟩ := h
    have htries : x.tries ≤ tries + 40 := by omega
    have hpart : 50000 * (attempt + 1) ≤ 2000000 := Nat.mul_le_mul_left 50000 hlt
    have hwaited : x.waited ≤ waited + 2000000 := hw.trans (Nat.add_le_add_left hpart waited)
    cases connected with
    | true =>
      have hdone : Within true false (tries + 40) forks (waited + 2000000) (some x) :=
        ⟨x, rfl, hopen, hblock, htries, hf, hwaited⟩
      exact .ret hdone
    | false => exact .ret ⟨⟨hlt, x, rfl, hopen, hblock, ht, hf, hw⟩, by omega⟩
  next =>
    have htries : t ≤ tries + 40 := by omega
    have hwaited : w ≤ waited + 2000000 := by omega
    exact .ret ⟨⟨false, false, t, f, w⟩, rfl, rfl, rfl, htries, hf, hwaited⟩

theorem Within.mono {isOpen block : Bool} {t f w t' f' w' : Nat} {s : Option Spent}
    (h : Within isOpen block t f w s) (ht : t ≤ t') (hf : f ≤ f') (hw : w ≤ w') :
    Within isOpen block t' f' w' s := by
  obtain ⟨x, rfl, hopen, hblock, hx⟩ := h
  exact ⟨x, rfl, hopen, hblock, hx.1.trans ht, hx.2.1.trans hf, hx.2.2.trans hw⟩

theorem ends_becomeDaemon {t f w : Nat} {s : Option Spent} (hs : Within false false t f w s) :
    Total Anything spend becomeDaemon s fun _ => Within false false t f w := by
  obtain ⟨x, rfl, hx⟩ := hs
  refine ends_perform fun _ => ends_perform fun _ => ends_perform fun _ => ends_perform fun _ => ?_
  refine ends_perform fun replaced => ?_
  cases replaced with
  | true => exact .ret ⟨x, rfl, hx⟩
  | false =>
    refine ends_perform fun replaced => ?_
    cases replaced with
    | true => exact .ret ⟨x, rfl, hx⟩
    | false => exact .ret ⟨x, rfl, hx⟩

/-- It connects once, and if that fails forks once and waits. -/
theorem ends_connectToDaemon :
    Total Anything spend connectToDaemon (some {}) fun r =>
      Within (r = .inl true) false 41 1 2000000 := by
  have hzero : Within false false 0 0 0 (some {}) :=
    ⟨_, rfl, rfl, rfl, Nat.le_refl _, Nat.le_refl _, Nat.le_refl _⟩
  refine (ends_tryConnect hzero).bind fun connected s hs => ?_
  have hall : ∀ {isOpen : Bool}, Within isOpen false (0 + 1) 0 0 s →
      Within isOpen false 41 1 2000000 s :=
    fun h => h.mono (by decide) (by decide) (Nat.zero_le _)
  cases connected with
  | true => exact .ret (hall hs)
  | false =>
    obtain ⟨x, rfl, hopen, hblock, ht, hf, hw⟩ := hs
    refine ends_perform fun root => ?_
    cases root with
    | none => exact .ret (hall ⟨x, rfl, hopen, hblock, ht, hf, hw⟩)
    | some root =>
      refine ends_perform fun forked => ?_
      have huse : x.use ⟨.fork, forked⟩ = some { x with forks := x.forks + 1 } := by
        simp [Spent.use, hopen]
      rw [huse]
      have hforked : Within false false 1 1 0 (some { x with forks := x.forks + 1 }) :=
        ⟨_, rfl, hopen, hblock, ht, Nat.succ_le_succ hf, hw⟩
      cases forked with
      | failed => exact .ret (hforked.mono (by decide) (by decide) (Nat.zero_le _))
      | child =>
        refine (ends_becomeDaemon hforked).bind fun fate s hs => ?_
        exact .ret (hs.mono (by decide) (by decide) (Nat.zero_le _))
      | parent =>
        show Total Anything spend ((Prog.loop pollRound 0 .ret).bind _) _ _
        refine (ends_poll hforked).bind fun connected s hs => ?_
        cases connected with
        | true => exact .ret (hs.mono (by decide) (by decide) (by omega))
        | false => exact .ret (hs.mono (by decide) (by decide) (by omega))

theorem ends_silent {t f w : Nat} {s : Option Spent} (hs : Within false false t f w s) :
    Total Anything spend silent s fun _ => Within false false t f w := by
  obtain ⟨x, rfl, hx⟩ := hs
  exact ends_perform fun _ => .ret ⟨x, rfl, hx⟩

theorem ends_hangUp {t f w : Nat} {s : Option Spent} (hs : Within true false t f w s) :
    Total Anything spend hangUp s fun _ => Within false false t f w := by
  obtain ⟨x, rfl, hopen, hx⟩ := hs
  refine ends_perform fun _ => ends_silent ?_
  exact ⟨{ x with isOpen := false }, by simp [Spent.use, hopen], rfl, hx⟩

/-- Every round but the last brings something, and there is no more than was announced. -/
theorem ends_receive (contentLen : UInt32) (x : Spent) (hopen : x.isOpen = true) :
    Total Anything spend (.loop (receiveRound contentLen) [] .ret) (some x) fun _ s =>
      s = some x := by
  refine .loop_of_measure (fun _ s => s = some x)
    (fun content _ => (int contentLen.toNat).toNat - content.length) (fun _ s => s = some x)
    ?_ (fun _ _ h => .ret h) rfl
  rintro content _ rfl
  unfold receiveRound
  split
  next hlt =>
    refine ends_perform fun d => ?_
    have huse : x.use ⟨.read (contentLen.toNat - content.length), d⟩ = some x := if_pos hopen
    rw [huse]
    split
    next => exact .ret rfl
    next hne =>
      have hpos := List.length_pos_iff.mpr hne
      have hless : (int contentLen.toNat).toNat - (content ++ d.1).length <
          (int contentLen.toNat).toNat - content.length := by
        rw [List.length_append]
        omega
      exact .ret ⟨rfl, hless⟩
  next => exact .ret rfl

theorem ends_deliver (signed : Bool) (resp : ReceivedMsg) {t f w : Nat} {s : Option Spent}
    (hs : Within true false t f w s) :
    Total Anything spend (deliver signed resp) s fun _ => Within false false t f w := by
  obtain ⟨x, rfl, hopen, hblock, hx⟩ := hs
  refine ends_perform fun allocated => ?_
  have huse : x.use ⟨.malloc (resp.contentLen + 1).toNat, allocated⟩ =
      some { x with block := allocated } := by simp [Spent.use, hblock]
  rw [huse]
  cases allocated with
  | false => exact ends_hangUp ⟨_, rfl, hopen, rfl, hx⟩
  | true =>
    show Total Anything spend ((Prog.loop (receiveRound resp.contentLen) [] .ret).bind _) _ _
    refine (ends_receive resp.contentLen { x with block := true } hopen).bind ?_
    rintro content _ rfl
    refine ends_perform fun _ => ?_
    have hclose : ({ x with block := true } : Spent).use ⟨.close, ()⟩ =
        some { x with isOpen := false, block := true } := if_pos hopen
    rw [hclose]
    refine ends_perform fun _ => ends_perform fun _ => ends_perform fun _ => ?_
    exact ends_perform fun _ => .ret ⟨{ x with isOpen := false, block := false }, rfl, rfl, rfl, hx⟩

theorem ends_ask (signed : Bool) (req : RequestMsg) {t f w : Nat} {s : Option Spent}
    (hs : Within true false t f w s) :
    Total Anything spend (ask signed req) s fun _ => Within false false t f w := by
  obtain ⟨x, rfl, hopen, hx⟩ := hs
  have hsame : Within true false t f w (some x) := ⟨x, rfl, hopen, hx⟩
  refine ends_perform fun u => ?_
  have hwrite : x.use ⟨.write req.toMem, u⟩ = some x := if_pos hopen
  rw [hwrite]
  refine ends_perform fun header => ?_
  have hread : x.use ⟨.read responseHeaderSize, header⟩ = some x := if_pos hopen
  rw [hread]
  dsimp only
  split
  next => exact ends_hangUp hsame
  next =>
    split
    next => exact ends_hangUp hsame
    next => exact ends_deliver signed _ hsame

/-- Whatever its calls answer, a hook comes to its end. It has tried to connect 41 times at
most, and forked once at most; it has slept for two seconds at most, and both the socket
and the content are released. It never uses a socket that it does not have. -/
theorem hook_process_ends (signed : Bool) :
    Total Anything spend (main signed) (some {}) fun _ s => Within false false 41 1 2000000 s := by
  refine ends_perform fun input => ?_
  have hzero : Within false false 41 1 2000000 (some {}) :=
    ⟨_, rfl, rfl, rfl, Nat.zero_le _, Nat.zero_le _, Nat.zero_le _⟩
  show Total Anything spend _ (some {}) _
  split
  next => exact ends_silent hzero
  next =>
    refine ends_connectToDaemon.bind fun connection s hs => ?_
    match connection with
    | .inr fate => exact .ret hs
    | .inl false => exact ends_silent hs
    | .inl true => exact ends_ask signed _ hs

end HookProcess

end Sockd.Reference
