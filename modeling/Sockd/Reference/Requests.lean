import Sockd.Reference.Router

/-!
# Requests of the reference router (`reference/protocol.h`, `reference/router-daemon.c`)

The messages, the matching of rules, `handle_request` and `process_connection`.
The `RequestMsg` of a connection is a buffer on the stack: `read` overwrites the
bytes it receives and leaves the rest, so what was in the buffer is an argument.

Beside what it computes, `handle_request` reports what it did on the way as a
list of `Event`s: the copies into `content_buf`, the sums it formed in `int` and
the changes of the dedup table. An `int` sum is taken in 32 bits and its event
has the value before the reduction, so that an overflow can be seen.
-/

namespace Sockd.Reference

open C

/-! ## `protocol.h` -/

/-- `PROTOCOL_MAGIC`: "IOSR". -/
def protocolMagic : UInt32 := 0x494F5352

/-- `PROTOCOL_VERSION`. -/
def protocolVersion : UInt8 := 1

/-- `MAX_PATH_LEN`. -/
def maxPathLen : Nat := 4096

/-- `SESSION_ID_LEN`. -/
def sessionIdLen : Nat := 64

/-- `MAX_SKILLS_PER_RESPONSE`. -/
def maxSkillsPerResponse : Nat := 3

/-- `MAX_RESPONSE_CONTENT`. -/
def maxResponseContent : Nat := 24576

/-- `REQUEST_HEADER_SIZE`: `sizeof(RequestMsg)`. -/
def requestHeaderSize : Nat := 8 + sessionIdLen + maxPathLen

/-- `RESPONSE_HEADER_SIZE`: `sizeof(ResponseMsg)`. -/
def responseHeaderSize : Nat := 12

/-- `ToolType`. -/
inductive ToolType
  | unknown | read | edit | multiedit | write | bash
  deriving DecidableEq, Repr

/-- The byte of a tool type. -/
def ToolType.code : ToolType → UInt8
  | unknown => 0
  | read => 1
  | edit => 2
  | multiedit => 3
  | write => 4
  | bash => 5

/-- `ResponseStatus`. -/
inductive ResponseStatus
  | noMatch | matched | deduped | error
  deriving DecidableEq, Repr

/-- `RequestMsg`; the two arrays are as they are in memory. -/
structure RequestMsg where
  magic : UInt32
  version : UInt8
  toolType : UInt8
  pathLen : UInt16
  sessionId : Bytes
  path : Bytes
  deriving DecidableEq

namespace RequestMsg

/-- The fields of the packed struct at the start of `mem`. -/
def ofMem (mem : Bytes) : RequestMsg where
  magic := UInt32.ofNat (Bytes.ofBe (mem.take 4).reverse)
  version := mem.getD 4 0
  toolType := mem.getD 5 0
  pathLen := UInt16.ofNat (Bytes.ofBe ((mem.drop 6).take 2).reverse)
  sessionId := (mem.drop 8).take sessionIdLen
  path := (mem.drop (8 + sessionIdLen)).take maxPathLen

/-- The string at `req->session_id`; it runs on into the path when its array has
no terminator. -/
def session (req : RequestMsg) : Str := Str.ofMem (req.sessionId ++ req.path)

/-- The string at `req->path`. -/
def pathStr (req : RequestMsg) : Str := Str.ofMem req.path

/-- Both strings end inside of their arrays. -/
def Terminated (req : RequestMsg) : Prop := 0 ∈ req.sessionId ∧ 0 ∈ req.path

end RequestMsg

/-- `ResponseMsg`. -/
structure ResponseMsg where
  magic : UInt32
  version : UInt8
  status : ResponseStatus
  skillCount : UInt8
  reserved : UInt8
  contentLen : UInt32
  deriving DecidableEq

/-! ## Dedup -/

/-- What `handle_request` does on its way. -/
inductive Event
  /-- the value of a sum of `int`s before it is reduced to 32 bits -/
  | summed (value : Int)
  /-- the copy of the separator to this offset of `content_buf` -/
  | separated (off : Int) (size : Nat)
  /-- the copy of a skill's content to this offset, for the session -/
  | placed (session skillId : Str) (off : Int) (size : Nat)
  /-- the dedup table was full and is emptied -/
  | reset
  /-- the entry was added to the dedup table -/
  | marked (entry : DedupEntry)
  deriving DecidableEq

/-- `is_deduped`. -/
def isDeduped (dedup : Table DedupEntry maxDedupEntries) (session skillId : Str) : Bool :=
  dedup.live.any fun e => e.sessionId.str == session && e.skillId.str == skillId

/-- `strncpy` of the two ids into an entry. -/
def DedupEntry.write (session skillId : Str) (e : DedupEntry) : DedupEntry :=
  { sessionId := e.sessionId.strncpy session, skillId := e.skillId.strncpy skillId }

/-- `mark_deduped`. -/
def markDeduped (dedup : Table DedupEntry maxDedupEntries) (session skillId : Str) :
    Table DedupEntry maxDedupEntries × List Event :=
  if room : dedup.count < maxDedupEntries then
    (dedup.grow (DedupEntry.write session skillId) room,
      [.marked (dedup.slots[dedup.count].write session skillId)])
  else
    have room := dedup.room_clear (by decide)
    (dedup.clear.grow (DedupEntry.write session skillId) room,
      [.reset, .marked (dedup.clear.slots[dedup.clear.count].write session skillId)])

/-! ## Pattern matching -/

/-- `get_basename`. -/
def getBasename (path : Str) : Str :=
  match Str.afterLast? '/'.toUInt8 path.bytes with
  | some rest => Str.ofMem rest
  | none => path

/-- `strcmp(s + len - plen, pat) == 0`, for a string that is long enough. -/
def endsWith (s pat : Str) : Bool :=
  decide (pat.strlen ≤ s.strlen) && s.bytes.drop (s.strlen - pat.strlen) == pat.bytes

/-- `rule_matches`. -/
def ruleMatches (rule : Rule) (str basename : Str) : Bool :=
  rule.patterns.live.any fun pat =>
    if rule.isBash then str.strstr pat.str
    else endsWith basename pat.str || endsWith str pat.str

/-! ## `handle_request` -/

/-- `Hit`. -/
structure Hit where
  skillIdx : Nat
  priority : Int
  deriving DecidableEq, Repr

/-- Phase 1, one rule. -/
def collectRule (path basename : Str) (hits : List Hit) (rule : Rule) : List Hit :=
  if ruleMatches rule path basename then
    rule.skillIndices.live.foldl (fun hits idx =>
      if hits.length ≥ 64 then hits else hits ++ [⟨idx, rule.priority⟩]) hits
  else hits

/-- Phase 1: the skills of the matching rules with their priorities. -/
def collectHits (rules : Table Rule maxRules) (path basename : Str) : List Hit :=
  rules.live.foldl (collectRule path basename) []

/-- The inner loop of phase 2: `tmp` moves left over the hits of lower priority.
The sorted hits before it are listed from the last one. -/
def shiftHit (tmp : Hit) : List Hit → List Hit
  | [] => [tmp]
  | h :: rest => if h.priority < tmp.priority then h :: shiftHit tmp rest else tmp :: h :: rest

/-- Phase 2: insertion sort by priority, highest first. -/
def sortHits (hits : List Hit) : List Hit :=
  (hits.foldl (fun sorted tmp => shiftHit tmp sorted) []).reverse

/-- The variables of phase 3, the dedup table and the events so far. -/
structure Selection where
  content : Buffer
  totalBytes : Int
  selected : Nat
  allDeduped : Bool
  dedup : Table DedupEntry maxDedupEntries
  events : List Event

/-- The separator between skills: `"\\n\\n---\\n\\n"` and its length. -/
def sep : Bytes := [10, 10, 45, 45, 45, 10, 10]

def sepLen : Nat := 7

/-- Note that the `int` sum of `a` and `b` was formed. -/
def Selection.sum (s : Selection) (a b : Int) : Selection :=
  { s with events := s.events ++ [.summed (a + b)] }

/-- Copy the separator. -/
def Selection.separate (s : Selection) : Selection :=
  { s with
    content := memcpy s.content s.totalBytes (fun i => sep.getD i 0) sepLen
    totalBytes := int (s.totalBytes + sepLen)
    events := s.events ++ [.separated s.totalBytes sepLen, .summed (s.totalBytes + sepLen)] }

/-- The bytes at the address of a mapping. -/
def Router.bytesAt (g : Router) (data : Option Nat) (i : Nat) : UInt8 :=
  match data.bind g.space.mapped with
  | some m => m.byte i
  | none => 0

/-- Copy the skill's content and mark the skill as injected. The size is added as
a `size_t` and the result converted back to `int`. -/
def Selection.place (s : Selection) (g : Router) (session : Str) (skill : MappedSkill) :
    Selection :=
  let size := skill.size.toNat
  let marked := markDeduped s.dedup session skill.id.str
  { s with
    content := memcpy s.content s.totalBytes (g.bytesAt skill.data) size
    totalBytes := int (s.totalBytes + size)
    selected := s.selected + 1
    dedup := marked.1
    events := s.events ++ .placed session skill.id.str s.totalBytes size :: marked.2 }

/-- One round of phase 3: `earlier` are the hits before this one. -/
def selectHit (g : Router) (session : Str) (bufSize : Int) (earlier : List Hit) (s : Selection)
    (hit : Hit) : Selection :=
  let skill := g.skill hit.skillIdx
  let size := int skill.size.toNat
  if earlier.any fun h => h.skillIdx == hit.skillIdx then s
  else if isDeduped s.dedup session skill.id.str then s
  else
    let s := { s with allDeduped := false }.sum s.totalBytes size
    if int (s.totalBytes + size) > bufSize then s
    else if s.selected > 0 then
      let withSep := int (s.totalBytes + sepLen)
      let s := (s.sum s.totalBytes sepLen).sum withSep size
      if int (withSep + size) > bufSize then s
      else s.separate.place g session skill
    else s.place g session skill

/-- Phase 3: deduplicate and select. -/
def selectHits (g : Router) (session : Str) (bufSize : Int) :
    List Hit → List Hit → Selection → Selection
  | _, [], s => s
  | earlier, hit :: rest, s =>
    if s.selected < maxSkillsPerResponse then
      selectHits g session bufSize (earlier ++ [hit]) rest
        (selectHit g session bufSize earlier s hit)
    else s

/-- What `handle_request` leaves: the state, the buffer, the byte count it returns,
the two results it writes through pointers, and what it did. -/
structure Routed where
  state : Router
  content : Buffer
  totalBytes : Int
  skillCount : UInt8
  status : ResponseStatus
  events : List Event

/-- The rule table for the request's tool, when its path is not empty. -/
def Router.rulesFor (g : Router) (req : RequestMsg) : Option (Table Rule maxRules) :=
  let isFileTool := req.toolType = ToolType.read.code ∨ req.toolType = ToolType.edit.code ∨
    req.toolType = ToolType.multiedit.code ∨ req.toolType = ToolType.write.code
  let isBash := req.toolType = ToolType.bash.code
  if isFileTool ∧ req.path.headD 0 ≠ 0 then some g.fileRules
  else if isBash ∧ req.path.headD 0 ≠ 0 then some g.bashRules
  else none

/-- The base name that phase 1 matches against; a bash command has none. -/
def RequestMsg.basename (req : RequestMsg) : Str :=
  if req.toolType = ToolType.bash.code then Str.lit "" else getBasename req.pathStr

/-- The variables of phase 3 at its start. -/
def Selection.start (g : Router) (contentBuf : Buffer) : Selection :=
  { content := contentBuf, totalBytes := 0, selected := 0, allDeduped := true, dedup := g.dedup
    events := [] }

/-- The end of `handle_request`: set the status and return the byte count. -/
def Selection.result (s : Selection) (g : Router) : Routed where
  state := { g with dedup := s.dedup }
  content := s.content
  totalBytes := s.totalBytes
  skillCount := if s.selected > 0 then UInt8.ofNat s.selected else 0
  status := if s.selected > 0 then .matched else if s.allDeduped then .deduped else .noMatch
  events := s.events

/-- `handle_request`; `outSkillCount` is what the caller has in `*out_skill_count`,
which the early returns leave alone. -/
def handleRequest (g : Router) (req : RequestMsg) (contentBuf : Buffer) (bufSize : Int)
    (outSkillCount : UInt8) : Routed :=
  let noMatch : Routed :=
    { state := g, content := contentBuf, totalBytes := 0, skillCount := outSkillCount
      status := .noMatch, events := [] }
  match g.rulesFor req with
  | none => noMatch
  | some rules =>
    let hits := collectHits rules req.pathStr req.basename
    if hits = [] then noMatch
    else
      let sorted := sortHits hits
      (selectHits g req.session bufSize [] sorted (Selection.start g contentBuf)).result g

/-! ## `process_connection` -/

/-- A connection: what `read` delivers (`none` when it fails), and what it meets:
the stack where the request and the content buffer lie, and the skills directory. -/
structure Connection where
  received : Option { d : Bytes // d.length ≤ requestHeaderSize }
  stack : { d : Bytes // d.length = requestHeaderSize }
  contentBuf : Buffer
  dir : Dir

/-- The request in the buffer after the `read` of these bytes. -/
def Connection.request (c : Connection) (d : Bytes) : RequestMsg :=
  RequestMsg.ofMem (d ++ c.stack.1.drop d.length)

/-- What a connection leaves: the state, and the header and content sent back. -/
structure Served where
  state : Router
  reply : Option (ResponseMsg × Bytes)
  events : List Event

/-- A header without content. -/
def ResponseMsg.plain (status : ResponseStatus) : ResponseMsg :=
  { magic := protocolMagic, version := protocolVersion, status := status, skillCount := 0
    reserved := 0, contentLen := 0 }

/-- `process_connection` up to the routing: the connection is done with, or its
request goes to `handle_request` in the given state. -/
def vet (g : Router) (c : Connection) : Served ⊕ (Router × RequestMsg) :=
  let g := { g with totalRequests := g.totalRequests + 1 }
  match c.received with
  | none => .inl ⟨g, none, []⟩
  | some d =>
    if d.1.length < responseHeaderSize then .inl ⟨g, none, []⟩
    else
      let req := c.request d.1
      if req.magic ≠ protocolMagic ∨ req.version ≠ protocolVersion then .inl ⟨g, none, []⟩
      else if req.toolType = ToolType.unknown.code then
        let done := some (ResponseMsg.plain .matched, ([] : Bytes))
        if req.pathStr.strncmp (Str.lit "PING") 4 then .inl ⟨g, done, []⟩
        else if req.pathStr.strncmp (Str.lit "SHUTDOWN") 8 then
          .inl ⟨{ g with running := false }, done, []⟩
        else if req.pathStr.strncmp (Str.lit "RELOAD") 6 then .inl ⟨reload g c.dir, done, []⟩
        else .inr (g, req)
      else .inr (g, req)

/-- The rest of `process_connection`: route the request and send the response. -/
def route (g : Router) (c : Connection) (req : RequestMsg) : Served :=
  let r := handleRequest g req c.contentBuf maxResponseContent 0
  let g := r.state
  let g := if r.status = .matched then { g with totalMatches := g.totalMatches + 1 } else g
  let g := if r.status = .deduped then { g with totalDeduped := g.totalDeduped + 1 } else g
  let resp : ResponseMsg :=
    { magic := protocolMagic, version := protocolVersion, status := r.status
      skillCount := r.skillCount, reserved := 0
      contentLen := UInt32.ofNat (r.totalBytes % 2 ^ 32).toNat }
  let body := if r.totalBytes > 0 then r.content.first r.totalBytes.toNat else []
  { state := g, reply := some (resp, body), events := r.events }

/-- `process_connection`. -/
def processConnection (g : Router) (c : Connection) : Served :=
  match vet g c with
  | .inl served => served
  | .inr (g, req) => route g c req

/-- The state with one more request counted. -/
def Router.counted (g : Router) : Router := { g with totalRequests := g.totalRequests + 1 }

/-- No answer, or the plain one that control commands get. -/
def Unrouted (reply : Option (ResponseMsg × Bytes)) : Prop :=
  reply = none ∨ reply = some (ResponseMsg.plain .matched, [])

/-- What a connection can come to before the routing: it is closed or answered
with the state kept, stopped or reloaded, or its request is routed. -/
theorem vet_cases (g : Router) (c : Connection) :
    (∃ reply, Unrouted reply ∧
      (vet g c = .inl ⟨g.counted, reply, []⟩ ∨
        vet g c = .inl ⟨{ g.counted with running := false }, reply, []⟩ ∨
        vet g c = .inl ⟨reload g.counted c.dir, reply, []⟩)) ∨
      ∃ d, c.received = some d ∧ vet g c = .inr (g.counted, c.request d.1) := by
  unfold vet
  split
  · exact .inl ⟨none, .inl rfl, .inl rfl⟩
  · next d hd =>
    split
    · exact .inl ⟨none, .inl rfl, .inl rfl⟩
    · dsimp only
      split
      · exact .inl ⟨none, .inl rfl, .inl rfl⟩
      · split
        · split
          · exact .inl ⟨_, .inr rfl, .inl rfl⟩
          · split
            · exact .inl ⟨_, .inr rfl, .inr (.inl rfl)⟩
            · split
              · exact .inl ⟨_, .inr rfl, .inr (.inr rfl)⟩
              · exact .inr ⟨d, hd, rfl⟩
        · exact .inr ⟨d, hd, rfl⟩

/-- `handle_request` leaves the state and does nothing, or it ends with a
selection from hits that it collected. -/
theorem handleRequest_cases (g : Router) (req : RequestMsg) (contentBuf : Buffer) (bufSize : Int)
    (outSkillCount : UInt8) :
    let r := handleRequest g req contentBuf bufSize outSkillCount
    (r.state = g ∧ r.events = []) ∨
      ∃ hits, r = (selectHits g req.session bufSize [] hits
        (Selection.start g contentBuf)).result g := by
  unfold handleRequest
  dsimp only
  split
  · exact .inl ⟨rfl, rfl⟩
  · split
    · exact .inl ⟨rfl, rfl⟩
    · exact .inr ⟨_, rfl⟩

/-- `handle_request` changes nothing of the state but the dedup table. -/
theorem handleRequest_state (g : Router) (req : RequestMsg) (contentBuf : Buffer) (bufSize : Int)
    (outSkillCount : UInt8) :
    ∃ dedup, (handleRequest g req contentBuf bufSize outSkillCount).state =
      { g with dedup := dedup } := by
  rcases handleRequest_cases g req contentBuf bufSize outSkillCount with ⟨h, -⟩ | ⟨hits, h⟩
  · exact ⟨g.dedup, h⟩
  · rw [h]
    exact ⟨_, rfl⟩

/-- Routing changes the dedup table and counts. -/
theorem route_state (g : Router) (c : Connection) (req : RequestMsg) :
    ∃ totalMatches totalDeduped, (route g c req).state =
      { g with
        dedup := (handleRequest g req c.contentBuf maxResponseContent 0).state.dedup
        totalMatches := totalMatches
        totalDeduped := totalDeduped } := by
  obtain ⟨dedup, hstate⟩ := handleRequest_state g req c.contentBuf maxResponseContent 0
  unfold route
  dsimp only
  rw [hstate]
  split
  · split <;> exact ⟨_, _, rfl⟩
  · split <;> exact ⟨_, _, rfl⟩

/-- The connections of a run one after the other: the state they leave and what
each of them came to. -/
def serve (g : Router) : List Connection → Router × List Served
  | [] => (g, [])
  | c :: cs =>
    let served := processConnection g c
    let rest := serve served.state cs
    (rest.1, served :: rest.2)

end Sockd.Reference
