import Mathlib.Data.Finset.Sort
import Sockd.Lists.Followers
import Sockd.Reference.Budget

/-!
# Short reads of the reference router

`process_connection` takes a read of 12 bytes for a request, and a `RequestMsg` has 4168.
The rest of the message is then what the stack held before. Whether that can be seen
depends on the received bytes alone: they settle the request if they are rejected, if they
are a whole message, or if the string that the tool is about ends within them
(`alike_iff`). A path that does not end may go on with one more byte in such a way that a
rule matches it that did not match before (`exists_byte`).
-/

namespace Sockd.Reference

open C

/-! ## What a connection comes to -/

/-- The control commands. -/
inductive Command
  | ping | shutdown | reload
  deriving DecidableEq

/-- `CMD_PING`, `CMD_SHUTDOWN` and `CMD_RELOAD`. -/
def Command.text : Command → Str
  | ping => Str.lit "PING"
  | shutdown => Str.lit "SHUTDOWN"
  | reload => Str.lit "RELOAD"

/-- The control command that a request is. -/
def RequestMsg.command? (req : RequestMsg) : Option Command :=
  if req.toolType = ToolType.unknown.code then
    if req.pathStr.strncmp (Str.lit "PING") 4 then some .ping
    else if req.pathStr.strncmp (Str.lit "SHUTDOWN") 8 then some .shutdown
    else if req.pathStr.strncmp (Str.lit "RELOAD") 6 then some .reload
    else none
  else none

/-- The request of a connection that passes the checks of length, magic and version. -/
def Connection.accepted (c : Connection) : Option RequestMsg :=
  match c.received with
  | none => none
  | some d =>
    if d.1.length < responseHeaderSize then none
    else if (c.request d.1).magic ≠ protocolMagic ∨ (c.request d.1).version ≠ protocolVersion then
      none
    else some (c.request d.1)

/-- The control command that is taken. -/
def Connection.command (c : Connection) : Option Command :=
  c.accepted.bind RequestMsg.command?

/-- What a control command does. -/
def Command.serve (g : Router) (dir : Dir) : Command → Served
  | ping => ⟨g, some (ResponseMsg.plain .matched, []), []⟩
  | shutdown => ⟨{ g with running := false }, some (ResponseMsg.plain .matched, []), []⟩
  | reload => ⟨Reference.reload g dir, some (ResponseMsg.plain .matched, []), []⟩

/-- A connection is closed, its command carried out, or its request routed. -/
theorem processConnection_eq (g : Router) (c : Connection) :
    processConnection g c =
      match c.accepted with
      | none => ⟨g.counted, none, []⟩
      | some req =>
        match req.command? with
        | some command => command.serve g.counted c.dir
        | none => route g.counted c req := by
  unfold processConnection vet Connection.accepted
  cases c.received with
  | none => rfl
  | some d =>
    dsimp only
    by_cases hlen : d.1.length < responseHeaderSize
    · rw [if_pos hlen, if_pos hlen]
      rfl
    rw [if_neg hlen, if_neg hlen]
    by_cases hbad : (c.request d.1).magic ≠ protocolMagic ∨
        (c.request d.1).version ≠ protocolVersion
    · rw [if_pos hbad, if_pos hbad]
      rfl
    rw [if_neg hbad, if_neg hbad]
    dsimp only [RequestMsg.command?]
    by_cases htool : (c.request d.1).toolType = ToolType.unknown.code
    · rw [if_pos htool, if_pos htool]
      by_cases hping : (c.request d.1).pathStr.strncmp (Str.lit "PING") 4 = true
      · rw [if_pos hping, if_pos hping]
        rfl
      rw [if_neg hping, if_neg hping]
      by_cases hshutdown : (c.request d.1).pathStr.strncmp (Str.lit "SHUTDOWN") 8 = true
      · rw [if_pos hshutdown, if_pos hshutdown]
        rfl
      rw [if_neg hshutdown, if_neg hshutdown]
      by_cases hreload : (c.request d.1).pathStr.strncmp (Str.lit "RELOAD") 6 = true
      · rw [if_pos hreload, if_pos hreload]
        rfl
      rw [if_neg hreload, if_neg hreload]
      rfl
    · rw [if_neg htool, if_neg htool]
      rfl

/-- Two connections leave the same state, send the same reply and take the same command. -/
structure Alike (g : Router) (c c' : Connection) : Prop where
  state : (processConnection g c).state = (processConnection g c').state
  reply : (processConnection g c).reply = (processConnection g c').reply
  command : c.command = c'.command

/-! ## The bytes of a request -/

/-- The received part of the path. -/
def receivedPath (d : Bytes) : Bytes := d.drop (8 + sessionIdLen)

section Request

variable {c : Connection} {d : Bytes}

theorem length_request_mem (hd : d.length ≤ requestHeaderSize) :
    (d ++ c.stack.1.drop d.length).length = requestHeaderSize := by
  rw [List.length_append, List.length_drop, c.stack.2]
  omega

/-- The path is its received part and what the stack holds after that. -/
theorem path_request (hd : d.length ≤ requestHeaderSize) :
    (c.request d).path = receivedPath d ++ c.stack.1.drop (max d.length (8 + sessionIdLen)) := by
  have hlen := length_request_mem (c := c) hd
  have hdrop : (d ++ c.stack.1.drop d.length).drop (8 + sessionIdLen) =
      receivedPath d ++ c.stack.1.drop (max d.length (8 + sessionIdLen)) := by
    rw [List.drop_append, List.drop_drop]
    congr 2
    omega
  unfold Connection.request RequestMsg.ofMem
  rw [← hdrop]
  refine List.take_of_length_le ?_
  rw [List.length_drop, hlen]
  exact Nat.sub_le_of_le_add (Nat.le_of_eq (Nat.add_comm _ _))

/-- The session id starts at byte 8 and may run on to the end of the message. -/
theorem session_request (hd : d.length ≤ requestHeaderSize) :
    (c.request d).session = Str.ofMem (d.drop 8 ++ c.stack.1.drop (max d.length 8)) := by
  have hpath := path_request (c := c) hd
  have hdrop : (d ++ c.stack.1.drop d.length).drop 8 =
      d.drop 8 ++ c.stack.1.drop (max d.length 8) := by
    rw [List.drop_append, List.drop_drop]
    congr 2
    omega
  have hrest : (c.request d).path = ((d ++ c.stack.1.drop d.length).drop 8).drop sessionIdLen := by
    rw [List.drop_drop]
    refine List.take_of_length_le ?_
    rw [List.length_drop, length_request_mem hd]
    exact Nat.sub_le_of_le_add (Nat.le_of_eq (Nat.add_comm _ _))
  unfold RequestMsg.session
  rw [hrest, ← hdrop]
  exact congrArg Str.ofMem (List.take_append_drop _ _)

/-- The fields before the session id are received. -/
theorem header_request (hd : responseHeaderSize ≤ d.length) :
    (c.request d).magic = (RequestMsg.ofMem d).magic ∧
      (c.request d).version = (RequestMsg.ofMem d).version ∧
      (c.request d).toolType = (RequestMsg.ofMem d).toolType := by
  have hlen : 12 ≤ d.length := hd
  unfold Connection.request RequestMsg.ofMem
  dsimp only
  rw [List.take_append_of_le_length (by omega), List.getD_append _ _ _ _ (by omega),
    List.getD_append _ _ _ _ (by omega)]
  exact ⟨rfl, rfl, rfl⟩

end Request

/-- The first character of the path tells whether it is empty. -/
theorem RequestMsg.headD_path (req : RequestMsg) : req.path.headD 0 = req.pathStr.first := by
  unfold RequestMsg.pathStr Str.first Str.ofMem
  cases req.path with
  | nil => rfl
  | cons b rest =>
    by_cases hb : b = 0
    · subst hb
      rfl
    · have hkeep : (b != 0) = true := bne_iff_ne.mpr hb
      dsimp only
      rw [List.takeWhile_cons_of_pos (p := fun b => b != 0) hkeep]
      rfl

/-- Of the message only the tool, the path up to its end and the session id matter. -/
theorem handleRequest_congr (g : Router) {req req' : RequestMsg}
    (htool : req.toolType = req'.toolType) (hpath : req.pathStr = req'.pathStr)
    (hsession : req.session = req'.session) (contentBuf : Buffer) (bufSize : Int)
    (outSkillCount : UInt8) :
    handleRequest g req contentBuf bufSize outSkillCount =
      handleRequest g req' contentBuf bufSize outSkillCount := by
  unfold handleRequest Router.rulesFor RequestMsg.basename
  rw [req.headD_path, req'.headD_path, htool, hpath, hsession]

/-- A command that is not known, and what is no tool at all, is not routed. -/
theorem handleRequest_of_tool (g : Router) {req : RequestMsg}
    (htool : req.toolType = ToolType.unknown.code ∨ ToolType.bash.code < req.toolType)
    (contentBuf : Buffer) (bufSize : Int) (outSkillCount : UInt8) :
    handleRequest g req contentBuf bufSize outSkillCount =
      ⟨g, contentBuf, 0, outSkillCount, .noMatch, []⟩ := by
  have hne : ∀ tool : ToolType, tool ≠ .unknown → req.toolType ≠ tool.code := by
    intro tool hknown he
    rw [he] at htool
    revert hknown htool
    cases tool <;> decide
  have hnone : g.rulesFor req = none := by
    unfold Router.rulesFor
    dsimp only
    rw [if_neg, if_neg]
    · exact fun h => hne .bash nofun h.1
    · intro h
      rcases h.1 with h | h | h | h
      · exact hne .read nofun h
      · exact hne .edit nofun h
      · exact hne .multiedit nofun h
      · exact hne .write nofun h
  unfold handleRequest
  rw [hnone]

/-! ## Bytes that settle the request -/

/-- The received bytes leave nothing of the request to the stack: they are rejected, or a
whole message, or the path is known as far as the tool looks at it. -/
inductive Settles (d : Bytes) : Prop
  | short : d.length < responseHeaderSize → Settles d
  | magic : (RequestMsg.ofMem d).magic ≠ protocolMagic → Settles d
  | version : (RequestMsg.ofMem d).version ≠ protocolVersion → Settles d
  | whole : d.length = requestHeaderSize → Settles d
  | ended : 0 ∈ receivedPath d → Settles d
  | command : (RequestMsg.ofMem d).toolType = ToolType.unknown.code →
      (∀ command : Command, receivedPath d <+: command.text.bytes →
        receivedPath d = command.text.bytes) → Settles d
  | noTool : ToolType.bash.code < (RequestMsg.ofMem d).toolType → Settles d

/-- `strncmp` with the whole of a string tests for a prefix. -/
theorem strncmp_iff (t s : Str) : t.strncmp s s.strlen = true ↔ s.bytes <+: t.bytes := by
  unfold Str.strncmp Str.strlen
  rw [List.take_length, beq_iff_eq]
  exact ⟨fun h => h ▸ List.take_prefix _ _, fun h => (List.prefix_iff_eq_take.mp h).symm⟩

/-- A prefix without a terminator is one of the string. -/
theorem prefix_ofMem (s : Str) (mem : Bytes) :
    s.bytes <+: (Str.ofMem mem).bytes ↔ s.bytes <+: mem := by
  refine ⟨fun h => h.trans (List.takeWhile_prefix _), fun h => ?_⟩
  obtain ⟨rest, rfl⟩ := h
  have hkeep : ∀ b ∈ s.bytes, (b != 0) = true := by
    intro b hb
    refine bne_iff_ne.mpr fun he => ?_
    subst he
    exact s.nulFree hb
  unfold Str.ofMem
  dsimp only
  rw [List.takeWhile_append_of_pos hkeep]
  exact List.prefix_append _ _

/-- No command is the start of another. -/
theorem Command.eq_of_prefix {bytes : Bytes} {c c' : Command} (h : c.text.bytes <+: bytes)
    (h' : c'.text.bytes <+: bytes) : c = c' := by
  have heither := List.prefix_or_prefix_of_prefix h h'
  revert heither
  clear h h'
  cases c <;> cases c' <;> decide

/-- A request with this path is the command. -/
theorem command?_eq_some {req : RequestMsg} (htool : req.toolType = ToolType.unknown.code)
    (command : Command) : req.command? = some command ↔
      command.text.bytes <+: req.pathStr.bytes := by
  have hping : req.pathStr.strncmp (Str.lit "PING") 4 = true ↔
      Command.ping.text.bytes <+: req.pathStr.bytes := strncmp_iff _ _
  have hshutdown : req.pathStr.strncmp (Str.lit "SHUTDOWN") 8 = true ↔
      Command.shutdown.text.bytes <+: req.pathStr.bytes := strncmp_iff _ _
  have hreload : req.pathStr.strncmp (Str.lit "RELOAD") 6 = true ↔
      Command.reload.text.bytes <+: req.pathStr.bytes := strncmp_iff _ _
  have hfirst : ∀ c : Command, c.text.bytes <+: req.pathStr.bytes →
      (some c = some command ↔ command.text.bytes <+: req.pathStr.bytes) :=
    fun c h => ⟨fun he => Option.some.inj he ▸ h,
      fun hc => congrArg some (Command.eq_of_prefix h hc)⟩
  unfold RequestMsg.command?
  rw [if_pos htool]
  split
  next h => exact hfirst .ping (hping.mp h)
  next hnotPing =>
    split
    next h => exact hfirst .shutdown (hshutdown.mp h)
    next hnotShutdown =>
      split
      next h => exact hfirst .reload (hreload.mp h)
      next hnotReload =>
        refine ⟨nofun, fun hc => ?_⟩
        cases command with
        | ping => exact absurd (hping.mpr hc) hnotPing
        | shutdown => exact absurd (hshutdown.mpr hc) hnotShutdown
        | reload => exact absurd (hreload.mpr hc) hnotReload

theorem command?_of_tool {req : RequestMsg} (htool : req.toolType ≠ ToolType.unknown.code) :
    req.command? = none := if_neg htool

section Settled

variable {g : Router} {c c' : Connection} {d : { d : Bytes // d.length ≤ requestHeaderSize }}

/-- Two connections that are closed. -/
theorem Alike.of_rejected (h : c.accepted = none) (h' : c'.accepted = none) : Alike g c c' := by
  have hsame : processConnection g c = processConnection g c' := by
    rw [processConnection_eq, processConnection_eq, h, h']
  refine ⟨congrArg Served.state hsame, congrArg Served.reply hsame, ?_⟩
  unfold Connection.command
  rw [h, h']

/-- Two connections whose requests come to the same. -/
theorem Alike.of_accepted {req req' : RequestMsg} (h : c.accepted = some req)
    (h' : c'.accepted = some req') (hdir : c.dir = c'.dir) (hcommand : req.command? = req'.command?)
    (hroute : req.command? = none → route g.counted c req = route g.counted c' req') :
    Alike g c c' := by
  have hsame : processConnection g c = processConnection g c' := by
    rw [processConnection_eq, processConnection_eq, h, h']
    dsimp only
    rw [← hcommand]
    cases hnone : req.command? with
    | none => exact hroute hnone
    | some command => exact congrArg (fun dir => command.serve g.counted dir) hdir
  refine ⟨congrArg Served.state hsame, congrArg Served.reply hsame, ?_⟩
  unfold Connection.command
  rw [h, h']
  exact hcommand

theorem accepted_of_short (hc : c.received = some d) (hshort : d.1.length < responseHeaderSize) :
    c.accepted = none := by
  unfold Connection.accepted
  rw [hc]
  exact if_pos hshort

/-- The checks look at received bytes only. -/
theorem accepted_of_long (hc : c.received = some d) (hlong : responseHeaderSize ≤ d.1.length) :
    c.accepted = if (RequestMsg.ofMem d.1).magic ≠ protocolMagic ∨
      (RequestMsg.ofMem d.1).version ≠ protocolVersion then none else some (c.request d.1) := by
  obtain ⟨hmagic, hversion, -⟩ := header_request (c := c) hlong
  unfold Connection.accepted
  rw [hc]
  dsimp only
  rw [if_neg (Nat.not_lt_of_le hlong), hmagic, hversion]

theorem accepted_of_bad (hc : c.received = some d)
    (hbad : (RequestMsg.ofMem d.1).magic ≠ protocolMagic ∨
      (RequestMsg.ofMem d.1).version ≠ protocolVersion) : c.accepted = none := by
  rcases Nat.lt_or_ge d.1.length responseHeaderSize with hshort | hlong
  · exact accepted_of_short hc hshort
  · rw [accepted_of_long hc hlong, if_pos hbad]

theorem route_congr {req req' : RequestMsg} (hbuf : c.contentBuf = c'.contentBuf)
    (h : ∀ buf bufSize n, handleRequest g req buf bufSize n = handleRequest g req' buf bufSize n) :
    route g c req = route g c' req' := by
  unfold route
  rw [h, hbuf]

/-- Requests over the same bytes that come to the same, unless the bytes are rejected. -/
theorem Alike.of_request (hc : c.received = some d) (hc' : c'.received = some d)
    (hdir : c.dir = c'.dir) (hbuf : c.contentBuf = c'.contentBuf)
    (h : responseHeaderSize ≤ d.1.length →
      (c.request d.1).command? = (c'.request d.1).command? ∧
        ((c.request d.1).command? = none → ∀ buf bufSize n,
          handleRequest g.counted (c.request d.1) buf bufSize n =
            handleRequest g.counted (c'.request d.1) buf bufSize n)) :
    Alike g c c' := by
  rcases Nat.lt_or_ge d.1.length responseHeaderSize with hshort | hlong
  · exact .of_rejected (accepted_of_short hc hshort) (accepted_of_short hc' hshort)
  obtain ⟨hcommand, hroute⟩ := h hlong
  by_cases hbad : (RequestMsg.ofMem d.1).magic ≠ protocolMagic ∨
      (RequestMsg.ofMem d.1).version ≠ protocolVersion
  · exact .of_rejected (accepted_of_bad hc hbad) (accepted_of_bad hc' hbad)
  · refine Alike.of_accepted ?_ ?_ hdir hcommand fun hnone => route_congr hbuf (hroute hnone)
    · rw [accepted_of_long hc hlong, if_neg hbad]
    · rw [accepted_of_long hc' hlong, if_neg hbad]

/-- A prefix that is longer than the first part is decided by it. -/
theorem isPrefix_append_iff {s w rest : Bytes} (h : w <+: s → w = s) :
    s <+: w ++ rest ↔ s <+: w := by
  refine ⟨fun hs => ?_, fun hs => hs.trans (List.prefix_append _ _)⟩
  rcases List.prefix_or_prefix_of_prefix hs (List.prefix_append w rest) with hsw | hws
  · exact hsw
  · rw [h hws]

/-- Bytes that settle the request make all connections over them alike. -/
theorem alike_of_settles (h : Settles d.1) (hc : c.received = some d) (hc' : c'.received = some d)
    (hdir : c.dir = c'.dir) (hbuf : c.contentBuf = c'.contentBuf) : Alike g c c' := by
  have htools : responseHeaderSize ≤ d.1.length →
      (c.request d.1).toolType = (c'.request d.1).toolType :=
    fun hlong => (header_request hlong).2.2.trans (header_request hlong).2.2.symm
  cases h with
  | short hshort => exact .of_rejected (accepted_of_short hc hshort) (accepted_of_short hc' hshort)
  | magic hbad =>
    exact .of_rejected (accepted_of_bad hc (.inl hbad)) (accepted_of_bad hc' (.inl hbad))
  | version hbad =>
    exact .of_rejected (accepted_of_bad hc (.inr hbad)) (accepted_of_bad hc' (.inr hbad))
  | whole hwhole =>
    have hrequest : c.request d.1 = c'.request d.1 := by
      unfold Connection.request
      rw [hwhole, List.drop_eq_nil_of_le (Nat.le_of_eq c.stack.2),
        List.drop_eq_nil_of_le (Nat.le_of_eq c'.stack.2)]
    refine .of_request hc hc' hdir hbuf fun _ => ?_
    rw [hrequest]
    exact ⟨rfl, fun _ _ _ _ => rfl⟩
  | ended hended =>
    have hstr : (c.request d.1).pathStr = (c'.request d.1).pathStr := by
      unfold RequestMsg.pathStr
      rw [path_request d.2, path_request d.2, Str.ofMem_append_of_mem hended,
        Str.ofMem_append_of_mem hended]
    have hsession : (c.request d.1).session = (c'.request d.1).session := by
      have hzero : 0 ∈ d.1.drop 8 := by
        have hended : 0 ∈ (d.1.drop 8).drop sessionIdLen := by
          rw [List.drop_drop]
          exact hended
        exact List.mem_of_mem_drop hended
      rw [session_request d.2, session_request d.2, Str.ofMem_append_of_mem hzero,
        Str.ofMem_append_of_mem hzero]
    refine .of_request hc hc' hdir hbuf fun hlong => ⟨?_, fun _ buf bufSize n => ?_⟩
    · unfold RequestMsg.command?
      rw [htools hlong, hstr]
    · exact handleRequest_congr _ (htools hlong) hstr hsession buf bufSize n
  | command htool hdecided =>
    refine .of_request hc hc' hdir hbuf fun hlong => ?_
    have hc₀ := (header_request (c := c) hlong).2.2.trans htool
    have hc₁ := (header_request (c := c') hlong).2.2.trans htool
    refine ⟨Option.ext fun command => ?_, fun _ buf bufSize n => ?_⟩
    · rw [command?_eq_some hc₀, command?_eq_some hc₁]
      unfold RequestMsg.pathStr
      rw [prefix_ofMem, prefix_ofMem, path_request d.2, path_request d.2,
        isPrefix_append_iff (hdecided command), isPrefix_append_iff (hdecided command)]
    · rw [handleRequest_of_tool _ (.inl hc₀), handleRequest_of_tool _ (.inl hc₁)]
  | noTool htool =>
    refine .of_request hc hc' hdir hbuf fun hlong => ?_
    have hc₀ := (header_request (c := c) hlong).2.2
    have hc₁ := (header_request (c := c') hlong).2.2
    have hne : (RequestMsg.ofMem d.1).toolType ≠ ToolType.unknown.code := by
      intro he
      rw [he] at htool
      exact absurd htool (by decide)
    refine ⟨?_, fun _ buf bufSize n => ?_⟩
    · rw [command?_of_tool (hc₀ ▸ hne), command?_of_tool (hc₁ ▸ hne)]
    · rw [handleRequest_of_tool _ (.inr (hc₀ ▸ htool)),
        handleRequest_of_tool _ (.inr (hc₁ ▸ htool))]

end Settled

/-! ## Bytes that do not -/

/-- A stack on which the path goes on with these bytes. -/
def stackWith (n : Nat) (tail : Bytes) : { d : Bytes // d.length = requestHeaderSize } :=
  ⟨(List.replicate (max n (8 + sessionIdLen)) 0 ++ tail ++
    List.replicate requestHeaderSize 0).take requestHeaderSize, by
      rw [List.length_take, List.length_append, List.length_replicate]
      omega⟩

theorem drop_stackWith {n : Nat} {tail : Bytes}
    (hlen : max n (8 + sessionIdLen) + tail.length ≤ requestHeaderSize) :
    ∃ k, (stackWith n tail).1.drop (max n (8 + sessionIdLen)) = tail ++ List.replicate k 0 := by
  refine ⟨requestHeaderSize - max n (8 + sessionIdLen) - tail.length, ?_⟩
  have hleft : (List.replicate (max n (8 + sessionIdLen)) (0 : UInt8)).length =
      max n (8 + sessionIdLen) := List.length_replicate
  unfold stackWith
  dsimp only
  rw [List.drop_take, List.append_assoc, List.drop_left' hleft, List.take_append,
    List.take_of_length_le (by omega), List.take_replicate]
  congr 2
  omega

/-- A string may be followed by zeros or by nothing. -/
theorem ofMem_append_replicate (s : Str) (k : Nat) :
    Str.ofMem (s.bytes ++ List.replicate k 0) = s := by
  cases k with
  | zero =>
    refine Str.ext_bytes ?_
    rw [List.replicate_zero, List.append_nil]
    refine List.takeWhile_eq_self_iff.mpr fun b hb => bne_iff_ne.mpr fun he => ?_
    subst he
    exact s.nulFree hb
  | succ k => exact Str.ofMem_append_zero s _

/-- The connection that finds such a stack. -/
def connectionWith (d : { d : Bytes // d.length ≤ requestHeaderSize }) (tail : Bytes) :
    Connection where
  received := some d
  stack := stackWith d.1.length tail
  contentBuf := fun _ => 0
  dir := none

section Unsettled

variable {d : { d : Bytes // d.length ≤ requestHeaderSize }}

/-- The path that the request then has. -/
theorem pathStr_connectionWith {tail : Bytes} {path : Str}
    (hlen : max d.1.length (8 + sessionIdLen) + tail.length ≤ requestHeaderSize)
    (hpath : receivedPath d.1 ++ tail = path.bytes) :
    ((connectionWith d tail).request d.1).pathStr = path := by
  obtain ⟨k, hdrop⟩ := drop_stackWith hlen
  unfold RequestMsg.pathStr
  rw [path_request d.2, connectionWith, hdrop, ← List.append_assoc, hpath]
  exact ofMem_append_replicate path k

/-- A letter and a word of at most 127 with it at the end, such that the word is not in the
received path and ends the path with the letter. -/
theorem exists_byte {w : Bytes} (hw : w.length < maxPathLen) (hnul : 0 ∉ w) :
    ∃ (c : UInt8) (pat : Str), c ≠ 0 ∧ pat.strlen ≤ 127 ∧ pat.bytes <:+ w ++ [c] ∧
      ¬ pat.bytes <:+: w := by
  have hinj : Function.Injective fun i : Fin 255 => UInt8.ofNat (i + 1) := by
    intro i j hij
    have hnat := congrArg UInt8.toNat hij
    simp only [UInt8.toNat_ofNat'] at hnat
    omega
  have hcard : (Finset.univ.map ⟨_, hinj⟩ : Finset UInt8).card = 255 := by
    rw [Finset.card_map, Finset.card_univ, Fintype.card_fin]
  have hlt : w.length < 4096 := hw
  obtain ⟨c, hc, v, hv, hsuffix, hnot⟩ := Followers.exists_not_following
    (Finset.univ.map ⟨_, hinj⟩ : Finset UInt8) w 126 (by omega) (by omega)
  have hzero : c ≠ 0 := by
    obtain ⟨i, -, rfl⟩ := Finset.mem_map.mp hc
    intro he
    have hnat := congrArg UInt8.toNat he
    simp only [Function.Embedding.coeFn_mk, UInt8.toNat_ofNat'] at hnat
    change _ = 0 at hnat
    omega
  refine ⟨c, ⟨v ++ [c], fun hmem => ?_⟩, hzero, ?_, hsuffix, hnot⟩
  · rcases List.mem_append.mp (hsuffix.mem hmem) with hmem | hmem
    · exact hnul hmem
    · exact hzero (List.mem_singleton.mp hmem).symm
  · show (v ++ [c]).length ≤ 127
    rw [List.length_append, List.length_singleton]
    omega

end Unsettled

/-- The one rule that this word matches, for the first skill. -/
def ruleFor (pat : Str) (isBash : Bool) : Rule where
  patterns := (Table.zero (Field.zero 127)).grow (fun slot => slot.strncpy pat) (by decide)
  skillIndices := (Table.zero 0).grow (fun _ => 0) (by decide)
  priority := 1
  isBash := isBash

/-- A table of one rule. -/
def tableOf (rule : Rule) : Table Rule maxRules :=
  (Table.zero Rule.zero).grow (fun _ => rule) (by decide)

/-- A router with one small skill, and rules for this word. -/
def routerFor (pat : Str) : Router :=
  { loadAllSkills Router.init (skillOfSize 1) with
    fileRules := tableOf (ruleFor pat false)
    bashRules := tableOf (ruleFor pat true) }

theorem endsWith_iff (s pat : Str) : endsWith s pat = true ↔ pat.bytes <:+ s.bytes := by
  unfold endsWith Str.strlen
  rw [Bool.and_eq_true, decide_eq_true_iff, beq_iff_eq]
  constructor
  · intro h
    rw [← h.2]
    exact List.drop_suffix _ _
  · intro h
    exact ⟨h.length_le, (List.suffix_iff_eq_drop.mp h).symm⟩

theorem afterLast?_suffix {c : UInt8} {bytes rest : Bytes}
    (h : Str.afterLast? c bytes = some rest) : rest <:+ bytes := by
  induction bytes with
  | nil => cases h
  | cons b bs ih =>
    unfold Str.afterLast? at h
    split at h
    next rest' hrest =>
      obtain rfl := Option.some.inj h
      exact (ih hrest).trans (List.suffix_cons _ _)
    next =>
      split at h
      next =>
        obtain rfl := Option.some.inj h
        exact List.suffix_cons _ _
      next => cases h

theorem getBasename_within (path : Str) : (getBasename path).bytes <:+: path.bytes := by
  unfold getBasename
  split
  next rest hrest =>
    exact (List.takeWhile_prefix _).isInfix.trans (afterLast?_suffix hrest).isInfix
  next => exact List.infix_refl _

section RouterFor

variable {pat path base : Str} {isBash : Bool}

theorem ruleMatches_ruleFor (hpat : pat.strlen ≤ 127) :
    ruleMatches (ruleFor pat isBash) path base =
      if isBash then path.strstr pat else endsWith base pat || endsWith path pat := by
  have hlive : (ruleFor pat isBash).patterns.live = [(Field.zero 127).strncpy pat] := by
    refine (Table.live_grow _ _ _).trans ?_
    rfl
  unfold ruleMatches
  rw [hlive, List.any_cons, List.any_nil, Bool.or_false, Field.str_strncpy,
    Str.truncate_of_le hpat]
  rfl

/-- The word at the end of the path makes the rule match, for either kind of tool. -/
theorem ruleMatches_of_suffix (hpat : pat.strlen ≤ 127) (h : pat.bytes <:+ path.bytes) :
    ruleMatches (ruleFor pat isBash) path base = true := by
  rw [ruleMatches_ruleFor hpat]
  split
  next => exact decide_eq_true h.isInfix
  next => rw [(endsWith_iff path pat).mpr h, Bool.or_true]

/-- Without the word in the path it does not match. -/
theorem not_ruleMatches (hpat : pat.strlen ≤ 127) (hbase : base.bytes <:+: path.bytes)
    (h : ¬ pat.bytes <:+: path.bytes) : ruleMatches (ruleFor pat isBash) path base = false := by
  rw [ruleMatches_ruleFor hpat]
  split
  next => exact decide_eq_false h
  next =>
    have hends : ∀ s : Str, s.bytes <:+: path.bytes → endsWith s pat = false := by
      intro s hs
      refine Bool.eq_false_iff.mpr fun hmatch => h ?_
      exact ((endsWith_iff s pat).mp hmatch).isInfix.trans hs
    rw [hends base hbase, hends path (List.infix_refl _), Bool.or_false]

theorem rulesFor_routerFor {req : RequestMsg} (hunknown : req.toolType ≠ ToolType.unknown.code)
    (hbash : req.toolType ≤ ToolType.bash.code) (hfirst : req.pathStr.first ≠ 0) :
    (routerFor pat).counted.rulesFor req =
      some (tableOf (ruleFor pat (decide (req.toolType = ToolType.bash.code)))) := by
  unfold Router.rulesFor
  rw [req.headD_path]
  dsimp only
  by_cases hb : req.toolType = ToolType.bash.code
  · rw [if_neg, if_pos ⟨hb, hfirst⟩, decide_eq_true hb]
    · rfl
    · rw [hb]
      exact fun h => absurd h.1 (by decide)
  · have hfile : req.toolType = ToolType.read.code ∨ req.toolType = ToolType.edit.code ∨
        req.toolType = ToolType.multiedit.code ∨ req.toolType = ToolType.write.code := by
      generalize req.toolType = t at hunknown hbash hb
      revert hunknown hbash hb
      have hall : ∀ i : Fin 256, UInt8.ofNat i ≠ ToolType.unknown.code →
          UInt8.ofNat i ≤ ToolType.bash.code → UInt8.ofNat i ≠ ToolType.bash.code →
          UInt8.ofNat i = ToolType.read.code ∨ UInt8.ofNat i = ToolType.edit.code ∨
            UInt8.ofNat i = ToolType.multiedit.code ∨ UInt8.ofNat i = ToolType.write.code := by
        decide +kernel
      have ht := hall ⟨t.toNat, t.toNat_lt⟩
      rw [UInt8.ofNat_toNat] at ht
      exact ht
    rw [if_pos ⟨hfile, hfirst⟩, decide_eq_false hb]
    rfl

/-- The hits in the table of the one rule. -/
theorem collectHits_tableOf (path base : Str) :
    collectHits (tableOf (ruleFor pat isBash)) path base =
      if ruleMatches (ruleFor pat isBash) path base then [⟨0, 1⟩] else [] := by
  have hlive : (tableOf (ruleFor pat isBash)).live = [ruleFor pat isBash] :=
    Table.live_grow _ _ _
  have hidx : (ruleFor pat isBash).skillIndices.live = [0] := Table.live_grow _ _ _
  unfold collectHits
  rw [hlive, List.foldl_cons, List.foldl_nil, collectRule, hidx]
  rfl

/-- The skill is small and not injected, so its hit is selected. -/
theorem selected_routerFor (session : Str) (contentBuf : Buffer) :
    (selectHits (routerFor pat).counted session maxResponseContent [] (sortHits [⟨0, 1⟩])
      (Selection.start (routerFor pat).counted contentBuf)).selected = 1 := by
  have hsize : int ((routerFor pat).counted.skill 0).size.toNat = 1 := by
    show int ((loadAllSkills Router.init (skillOfSize 1)).skill 0).size.toNat = 1
    decide +kernel
  have hdedup : isDeduped (Selection.start (routerFor pat).counted contentBuf).dedup session
      ((routerFor pat).counted.skill 0).id.str = false := rfl
  have hsort : sortHits [⟨0, 1⟩] = [⟨0, 1⟩] := rfl
  have hroom : (Selection.start (routerFor pat).counted contentBuf).selected <
      maxSkillsPerResponse := Nat.zero_lt_succ 2
  rw [hsort, selectHits, if_pos hroom, selectHits]
  unfold selectHit
  dsimp only
  have hfits : ¬ int (0 + 1) > maxResponseContent := by decide
  rw [if_neg (by simp), if_neg (by rw [hdedup]; decide), hsize]
  unfold Selection.start Selection.sum
  dsimp only
  rw [if_neg hfits]
  rfl

/-- The request is matched exactly if the rule for the word matches its path. -/
theorem status_routerFor {req : RequestMsg} (hunknown : req.toolType ≠ ToolType.unknown.code)
    (hbash : req.toolType ≤ ToolType.bash.code) (contentBuf : Buffer) :
    (handleRequest (routerFor pat).counted req contentBuf maxResponseContent 0).status =
      if req.pathStr.first ≠ 0 ∧ ruleMatches
        (ruleFor pat (decide (req.toolType = ToolType.bash.code))) req.pathStr req.basename = true
      then .matched else .noMatch := by
  unfold handleRequest
  by_cases hfirst : req.pathStr.first = 0
  · have hnone : (routerFor pat).counted.rulesFor req = none := by
      unfold Router.rulesFor
      rw [req.headD_path]
      dsimp only
      rw [if_neg fun h => h.2 hfirst, if_neg fun h => h.2 hfirst]
    rw [hnone, if_neg fun h => h.1 hfirst]
  · rw [rulesFor_routerFor hunknown hbash hfirst]
    dsimp only
    rw [collectHits_tableOf]
    by_cases hmatch : ruleMatches (ruleFor pat (decide (req.toolType = ToolType.bash.code)))
        req.pathStr req.basename = true
    · rw [if_pos hmatch, if_neg (List.cons_ne_nil _ _), if_pos ⟨hfirst, hmatch⟩]
      unfold Selection.result
      dsimp only
      rw [selected_routerFor]
      rfl
    · rw [if_neg hmatch, if_pos rfl, if_neg fun h => hmatch h.2]

end RouterFor

theorem basename_within (req : RequestMsg) : req.basename.bytes <:+: req.pathStr.bytes := by
  unfold RequestMsg.basename
  split
  next => exact List.nil_infix
  next => exact getBasename_within _

theorem first_ne_zero {s : Str} (h : s.bytes ≠ []) : s.first ≠ 0 := by
  obtain ⟨b, rest, hs⟩ := List.exists_cons_of_ne_nil h
  unfold Str.first
  rw [hs]
  intro hb
  refine s.nulFree ?_
  rw [hs, ← hb]
  exact List.mem_cons_self

/-! ## The bytes on which a reply depends -/

section Unsettled

variable {d : { d : Bytes // d.length ≤ requestHeaderSize }}

/-- Bytes with the right magic and version are accepted. -/
theorem accepted_connectionWith (hlong : responseHeaderSize ≤ d.1.length)
    (hmagic : (RequestMsg.ofMem d.1).magic = protocolMagic)
    (hversion : (RequestMsg.ofMem d.1).version = protocolVersion) (tail : Bytes) :
    (connectionWith d tail).accepted = some ((connectionWith d tail).request d.1) := by
  rw [accepted_of_long (c := connectionWith d tail) rfl hlong, if_neg]
  exact fun hbad => hbad.elim (fun h => h hmagic) fun h => h hversion

/-- The reply to a request that is routed has the status of its routing. -/
theorem reply_of_route {g : Router} {c : Connection} {req : RequestMsg} (h : c.accepted = some req)
    (hcommand : req.command? = none) :
    (processConnection g c).reply.map (fun reply => reply.1.status) =
      some (handleRequest g.counted req c.contentBuf maxResponseContent 0).status := by
  rw [processConnection_eq, h]
  dsimp only
  rw [hcommand]
  rfl

theorem reply_of_command {g : Router} {c : Connection} {req : RequestMsg} {command : Command}
    (h : c.accepted = some req) (hcommand : req.command? = some command) :
    (processConnection g c).reply.map (fun reply => reply.1.status) = some .matched := by
  rw [processConnection_eq, h]
  dsimp only
  rw [hcommand]
  cases command <;> rfl

/-- A path that does not end within the received bytes makes a difference to some router. -/
theorem exists_unlike_of_path (hlong : responseHeaderSize ≤ d.1.length)
    (hmagic : (RequestMsg.ofMem d.1).magic = protocolMagic)
    (hversion : (RequestMsg.ofMem d.1).version = protocolVersion)
    (hpart : d.1.length < requestHeaderSize) (hopen : 0 ∉ receivedPath d.1)
    (hunknown : (RequestMsg.ofMem d.1).toolType ≠ ToolType.unknown.code)
    (hbash : (RequestMsg.ofMem d.1).toolType ≤ ToolType.bash.code) :
    ∃ (g : Router) (tail tail' : Bytes),
      ¬ Alike g (connectionWith d tail) (connectionWith d tail') := by
  have hsize : requestHeaderSize = 8 + sessionIdLen + maxPathLen := rfl
  have hlen : (receivedPath d.1).length < maxPathLen := by
    unfold receivedPath
    rw [List.length_drop]
    have hpos : 0 < maxPathLen := by decide
    omega
  have hroom : max d.1.length (8 + sessionIdLen) + 1 ≤ requestHeaderSize := by
    have hpos : 0 < maxPathLen := by decide
    omega
  obtain ⟨b, pat, hb, hpat, hsuffix, hnot⟩ := exists_byte hlen hopen
  have hends : 0 ∉ receivedPath d.1 ++ [b] := by
    intro hmem
    rcases List.mem_append.mp hmem with hmem | hmem
    · exact hopen hmem
    · exact hb (List.mem_singleton.mp hmem).symm
  refine ⟨routerFor pat, [], [b], fun halike => ?_⟩
  have haccepted := accepted_connectionWith hlong hmagic hversion
  have htool : ∀ tail, ((connectionWith d tail).request d.1).toolType =
      (RequestMsg.ofMem d.1).toolType := fun tail => (header_request hlong).2.2
  have hreply : ∀ tail, (processConnection (routerFor pat) (connectionWith d tail)).reply.map
      (fun reply => reply.1.status) =
      some (handleRequest (routerFor pat).counted ((connectionWith d tail).request d.1)
        (connectionWith d tail).contentBuf maxResponseContent 0).status :=
    fun tail => reply_of_route (haccepted tail) (command?_of_tool (htool tail ▸ hunknown))
  have hstatus := congrArg (Option.map fun reply => reply.1.status) halike.reply
  rw [hreply, hreply, status_routerFor (htool _ ▸ hunknown) (htool _ ▸ hbash),
    status_routerFor (htool _ ▸ hunknown) (htool _ ▸ hbash)] at hstatus
  have hwithout : ((connectionWith d []).request d.1).pathStr = ⟨receivedPath d.1, hopen⟩ :=
    pathStr_connectionWith (Nat.le_of_succ_le hroom) (List.append_nil _)
  have hwith : ((connectionWith d [b]).request d.1).pathStr = ⟨receivedPath d.1 ++ [b], hends⟩ :=
    pathStr_connectionWith hroom rfl
  rw [if_neg, if_pos] at hstatus
  · cases hstatus
  · refine ⟨first_ne_zero ?_, ruleMatches_of_suffix hpat ?_⟩
    · rw [hwith]
      exact List.append_ne_nil_of_right_ne_nil _ (List.cons_ne_nil _ _)
    · rw [hwith]
      exact hsuffix
  · intro h
    have hmatch : ∀ isBash, ruleMatches (ruleFor pat isBash)
        ((connectionWith d []).request d.1).pathStr
        ((connectionWith d []).request d.1).basename = false := by
      intro isBash
      refine not_ruleMatches hpat (basename_within _) ?_
      rw [hwithout]
      exact hnot
    exact absurd (h.2.symm.trans (hmatch _)) nofun

/-- A path that may yet become a command makes a difference to every router. -/
theorem exists_unlike_of_command {command : Command} (hlong : responseHeaderSize ≤ d.1.length)
    (hmagic : (RequestMsg.ofMem d.1).magic = protocolMagic)
    (hversion : (RequestMsg.ofMem d.1).version = protocolVersion)
    (hunknown : (RequestMsg.ofMem d.1).toolType = ToolType.unknown.code)
    (hle : receivedPath d.1 <+: command.text.bytes) (hne : receivedPath d.1 ≠ command.text.bytes)
    (g : Router) :
    ∃ tail tail' : Bytes, ¬ Alike g (connectionWith d tail) (connectionWith d tail') := by
  obtain ⟨tail, htail⟩ := hle
  have hshort : ∀ c : Command, c.text.bytes.length ≤ 8 := by
    intro c
    cases c <;> decide
  have hroom : max d.1.length (8 + sessionIdLen) + tail.length ≤ requestHeaderSize := by
    have hlen := congrArg List.length htail
    have htext := hshort command
    unfold receivedPath at hlen
    rw [List.length_append, List.length_drop] at hlen
    have hsize : 8 + sessionIdLen + 8 ≤ requestHeaderSize := by decide
    omega
  have hfree : 0 ∉ receivedPath d.1 := by
    intro hmem
    refine command.text.nulFree ?_
    rw [← htail]
    exact List.mem_append_left _ hmem
  have haccepted := accepted_connectionWith hlong hmagic hversion
  have htool : ∀ tail, ((connectionWith d tail).request d.1).toolType = ToolType.unknown.code :=
    fun tail => (header_request hlong).2.2.trans hunknown
  have hwithout : ((connectionWith d []).request d.1).pathStr = ⟨receivedPath d.1, hfree⟩ := by
    refine pathStr_connectionWith ?_ (List.append_nil _)
    exact (Nat.add_le_add_left (Nat.zero_le _) _).trans hroom
  have hwith : ((connectionWith d tail).request d.1).pathStr = command.text :=
    pathStr_connectionWith hroom htail
  have htaken : ((connectionWith d tail).request d.1).command? = some command := by
    rw [command?_eq_some (htool tail), hwith]
  have hnone : ((connectionWith d []).request d.1).command? = none := by
    refine Option.eq_none_iff_forall_ne_some.mpr fun other hother => hne ?_
    rw [command?_eq_some (htool []), hwithout] at hother
    have hle : receivedPath d.1 <+: command.text.bytes := ⟨tail, htail⟩
    obtain rfl := Command.eq_of_prefix (hother.trans hle) (List.prefix_refl _)
    exact hle.eq_of_length_le hother.length_le
  refine ⟨tail, [], fun halike => ?_⟩
  have hstatus := congrArg (Option.map fun reply => reply.1.status) halike.reply
  rw [reply_of_command (haccepted tail) htaken, reply_of_route (haccepted []) hnone,
    handleRequest_of_tool _ (.inl (htool []))] at hstatus
  cases hstatus

end Unsettled

/-- What a connection comes to depends on the received bytes alone, for every router and
every two stacks, exactly if these bytes settle the request. -/
theorem alike_iff (d : { d : Bytes // d.length ≤ requestHeaderSize }) :
    (∀ (g : Router) (stack stack' : { d : Bytes // d.length = requestHeaderSize })
      (contentBuf : Buffer) (dir : Dir),
        Alike g ⟨some d, stack, contentBuf, dir⟩ ⟨some d, stack', contentBuf, dir⟩) ↔
      Settles d.1 := by
  constructor
  · intro h
    by_contra hnot
    have hlong : responseHeaderSize ≤ d.1.length :=
      Nat.le_of_not_lt fun hshort => hnot (.short hshort)
    have hmagic : (RequestMsg.ofMem d.1).magic = protocolMagic :=
      by_contra fun hbad => hnot (.magic hbad)
    have hversion : (RequestMsg.ofMem d.1).version = protocolVersion :=
      by_contra fun hbad => hnot (.version hbad)
    have hpart : d.1.length < requestHeaderSize :=
      Nat.lt_of_le_of_ne d.2 fun hwhole => hnot (.whole hwhole)
    have hbash : (RequestMsg.ofMem d.1).toolType ≤ ToolType.bash.code :=
      UInt8.not_lt.mp fun hlt => hnot (.noTool hlt)
    by_cases hunknown : (RequestMsg.ofMem d.1).toolType = ToolType.unknown.code
    · have hcommand : ∃ command : Command, receivedPath d.1 <+: command.text.bytes ∧
          receivedPath d.1 ≠ command.text.bytes := by
        by_contra hnone
        refine hnot (.command hunknown fun command hle => ?_)
        by_contra hne
        exact hnone ⟨command, hle, hne⟩
      obtain ⟨command, hle, hne⟩ := hcommand
      obtain ⟨tail, tail', hunlike⟩ := exists_unlike_of_command hlong hmagic hversion hunknown hle
        hne Router.init
      exact hunlike (h _ _ _ _ _)
    · obtain ⟨g, tail, tail', hunlike⟩ := exists_unlike_of_path hlong hmagic hversion hpart
        (fun hended => hnot (.ended hended)) hunknown hbash
      exact hunlike (h _ _ _ _ _)
  · intro h g stack stack' contentBuf dir
    exact alike_of_settles h rfl rfl rfl rfl

/-- A read of twelve bytes: the magic, the version, the tool and a part of the session id. -/
def twelveBytes : { d : Bytes // d.length ≤ requestHeaderSize } :=
  ⟨[0x52, 0x53, 0x4F, 0x49, 1, 1, 7, 0, 115, 0, 0, 0], by decide⟩

/-- The request is answered for the path that the stack held from an earlier one. -/
theorem answered_from_stack : ¬ ∀ (d : { d : Bytes // d.length ≤ requestHeaderSize }) (g : Router)
    (stack stack' : { d : Bytes // d.length = requestHeaderSize }) (contentBuf : Buffer)
    (dir : Dir), Alike g ⟨some d, stack, contentBuf, dir⟩ ⟨some d, stack', contentBuf, dir⟩ := by
  intro h
  have hreply := (h twelveBytes (routerFor (Str.lit ".swift")) (stackWith 12 [])
    (stackWith 12 (Bytes.encode "a.swift".toList)) (fun _ => 0) none).reply
  have hunlike : (processConnection (routerFor (Str.lit ".swift"))
      ⟨some twelveBytes, stackWith 12 [], fun _ => 0, none⟩).reply ≠
      (processConnection (routerFor (Str.lit ".swift"))
        ⟨some twelveBytes, stackWith 12 (Bytes.encode "a.swift".toList), fun _ => 0, none⟩).reply := by
    decide +kernel
  exact hunlike hreply

end Sockd.Reference
