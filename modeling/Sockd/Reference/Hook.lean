import Sockd.Reference.Layout
import Sockd.Reference.Shipped

/-!
# A hook from its JSON to its JSON

`Client` has the two programs of text in the hook, and `Selection` says what the daemon
chooses. Here one end is put to the other: the request that the hook builds is received as it
was built (`accepted_built`), whatever pieces the content comes in (`Delivers`) it is
received whole, and so a hook prints the greedy choice of the daemon and nothing else
(`hook_prints`). A hook is a control command just when its tool has no name of its own and
its file is called like the command (`hook_command`).
-/

namespace Sockd.Reference

open C

/-! ## The request that is built -/

/-- The loop writes below the last byte of the array. -/
theorem copyValue_last (outSize : Int) (bytes : Bytes) (out : Buffer) {i : Int}
    (hle : i ≤ outSize - 1) :
    (copyValue outSize bytes out i).1 (outSize - 1) = out (outSize - 1) ∧
      (copyValue outSize bytes out i).2 ≤ outSize - 1 := by
  have hset : ∀ (out : Buffer) (b : UInt8) {i : Int}, i < outSize - 1 →
      (out.set i b) (outSize - 1) = out (outSize - 1) := by
    intro out b i hlt
    exact if_neg (by omega)
  induction bytes, out, i using copyValue.induct outSize with
  | case1 next rest out i hroom ih =>
    obtain ⟨hlast, hend⟩ := ih (by omega)
    rw [copyValue, if_pos hroom, if_pos rfl]
    exact ⟨hlast.trans (hset out _ hroom.2), hend⟩
  | case2 b next rest out i hroom hplain ih =>
    obtain ⟨hlast, hend⟩ := ih (by omega)
    rw [copyValue, if_pos hroom, if_neg hplain]
    exact ⟨hlast.trans (hset out _ hroom.2), hend⟩
  | case3 b next rest out i hstop =>
    rw [copyValue, if_neg hstop]
    exact ⟨rfl, hle⟩
  | case4 b out i hroom =>
    rw [copyValue, if_pos hroom]
    exact ⟨hset out _ hroom.2, by omega⟩
  | case5 b out i hstop =>
    rw [copyValue, if_neg hstop]
    exact ⟨rfl, hle⟩
  | case6 out i => exact ⟨rfl, hle⟩

/-- A string that is taken out of the input ends inside of its array. -/
theorem strlen_extracted_lt (input : Str) (key : String) {size : Nat} (hpos : 0 < size) :
    (extracted input key size).strlen < size := by
  have hlast :
      (extractJsonString input (Str.lit key) (fun _ => 0) size).1 (size - 1 : Int) = 0 := by
    unfold extractJsonString
    split
    next => rfl
    next start skip _ =>
      have hcopy := copyValue_last size (input.bytes.drop (start + skip))
        (fun _ => 0) (i := 0) (by omega)
      dsimp only
      unfold Buffer.set
      split
      next => rfl
      next => exact hcopy.1
  have hzero : (0 : UInt8) ∈
      (extractJsonString input (Str.lit key) (fun _ => 0) size).1.first size := by
    have hcast : Int.ofNat (size - 1) = size - 1 := by
      rw [Int.ofNat_eq_natCast]
      omega
    rw [Buffer.first_eq]
    refine List.mem_map.mpr ⟨size - 1, List.mem_range.mpr (by omega), ?_⟩
    exact (congrArg _ hcast).trans hlast
  have hlt := Str.strlen_ofMem_lt hzero
  rwa [Buffer.first_eq, List.length_map, List.length_range, ← Buffer.first_eq] at hlt

section Built

variable (input : Str)

/-- The tool of the hook. -/
def hookTool : ToolType := parseToolType (extracted input "tool_name" 64)

/-- The string that the hook is about. -/
def hookPath : Str :=
  if hookTool input = .bash then extracted input "command" maxPathLen
  else extracted input "file_path" maxPathLen

theorem strlen_hookPath_lt : (hookPath input).strlen < maxPathLen := by
  unfold hookPath
  split
  · exact strlen_extracted_lt input _ (by decide)
  · exact strlen_extracted_lt input _ (by decide)

/-- The path of the request is the string, padded with zeros. -/
theorem path_buildRequest : (buildRequest input).path =
    (hookPath input).bytes ++ List.replicate (maxPathLen - (hookPath input).strlen) 0 := by
  have hlt := strlen_hookPath_lt input
  have hpath : (buildRequest input).path =
      (hookPath input).bytes.take (if (hookPath input).strlen > maxPathLen - 1 then maxPathLen - 1
        else (hookPath input).strlen) ++
      List.replicate (maxPathLen - (if (hookPath input).strlen > maxPathLen - 1 then
        maxPathLen - 1 else (hookPath input).strlen)) 0 := rfl
  rw [hpath, if_neg (by omega), Str.strlen, List.take_length]

/-- The two arrays are full. -/
theorem sized_buildRequest : (buildRequest input).Sized where
  sessionId := ((Field.zero 63).strncpy (extracted input "session_id" sessionIdLen)).size
  path := by
    have hlt := strlen_hookPath_lt input
    rw [path_buildRequest, List.length_append, List.length_replicate]
    unfold Str.strlen at hlt ⊢
    omega

/-- The daemon reads the string that the hook is about. -/
theorem pathStr_buildRequest : (buildRequest input).pathStr = hookPath input := by
  have hlt := strlen_hookPath_lt input
  obtain ⟨k, hk⟩ : ∃ k, maxPathLen - (hookPath input).strlen = k + 1 :=
    ⟨maxPathLen - (hookPath input).strlen - 1, by omega⟩
  unfold RequestMsg.pathStr
  rw [path_buildRequest, hk, List.replicate_succ]
  exact Str.ofMem_append_zero _ _

end Built

/-! ## The content that comes in pieces -/

section Reads

variable {body : Nat → (size : Nat) → { d : Bytes // d.length ≤ size }}

/-- From this read on the reads deliver this content, a part of it each. -/
inductive Delivers (body : Nat → (size : Nat) → { d : Bytes // d.length ≤ size }) :
    Nat → Bytes → Prop
  | nothing (round : Nat) : Delivers body round []
  | part {round : Nat} {part rest : Bytes} : part ≠ [] →
      (body round (part ++ rest).length).1 = part → Delivers body (round + 1) rest →
      Delivers body round (part ++ rest)

/-- The client has all of it in the end. -/
theorem Delivers.receive {round : Nat} {content : Bytes} (h : Delivers body round content) :
    receive body round content.length = content := by
  induction h with
  | nothing round => rw [List.length_nil, Reference.receive, if_pos rfl]
  | @part round part rest hne hread _ ih =>
    have hlen : (part ++ rest).length ≠ 0 := by
      rw [List.length_append]
      have := List.length_pos_iff.mpr hne
      omega
    rw [Reference.receive, if_neg hlen, hread]
    cases part with
    | nil => exact absurd rfl hne
    | cons b bs =>
      dsimp only
      rw [List.length_append, Nat.add_sub_cancel_left, ih]

end Reads

/-! ## One hook -/

/-- The request of the hook. -/
def Surroundings.request (env : Surroundings) : RequestMsg := buildRequest (Str.ofMem env.input.1)

/-- The hook reaches the daemon: its request is read whole, and the reply that the daemon
sends is what the hook reads, the header at once and the content in some pieces. -/
structure Hooked (g : Router) (env : Surroundings) (c : Connection) : Prop where
  input : env.input.1 ≠ []
  connects : env.connects = true
  allocates : env.allocates = true
  sent : c.received.map Subtype.val = some env.request.toMem
  reply : ∀ resp content, (processConnection g c).reply = some (resp, content) →
    env.header.1 = resp.toMem ∧ Delivers env.body 0 content

section Hooked

variable {g : Router} {env : Surroundings} {c : Connection}

/-- The daemon takes the request as it was built. -/
theorem Hooked.accepted (h : Hooked g env c) :
    c.accepted = some env.request := by
  have hsized : env.request.Sized := sized_buildRequest _
  obtain ⟨d, hreceived, hd⟩ := Option.map_eq_some_iff.mp h.sent
  have hrequest : c.request d.1 = env.request := by
    unfold Connection.request
    rw [hd]
    exact RequestMsg.ofMem_toMem hsized _
  have hlong : ¬ d.1.length < responseHeaderSize := by
    rw [hd, RequestMsg.length_toMem hsized]
    decide
  have hvalid : ¬ ((c.request d.1).magic ≠ protocolMagic ∨
      (c.request d.1).version ≠ protocolVersion) := by
    rw [hrequest]
    exact fun h => h.elim (fun h => h rfl) fun h => h rfl
  unfold Connection.accepted
  rw [hreceived]
  dsimp only
  rw [if_neg hlong, if_neg hvalid, hrequest]

/-- What is printed when the daemon replies so. -/
theorem Hooked.printed (h : Hooked g env c) (signed : Bool) {resp : ResponseMsg} {content : Bytes}
    (hreply : (processConnection g c).reply = some (resp, content))
    (hmagic : resp.magic = protocolMagic) (hversion : resp.version = protocolVersion)
    (hlen : resp.contentLen.toNat = content.length) (hsmall : content.length < 2 ^ 31) :
    (main signed env).printed =
      if resp.status = .matched ∧ content ≠ [] then output signed content
      else printf "\x7b\x7d" := by
  obtain ⟨hheader, hdelivers⟩ := h.reply resp content hreply
  have hresp : ReceivedMsg.ofMem env.header.1 =
      ⟨resp.magic, resp.version, resp.status.code, resp.contentLen⟩ := by
    rw [hheader, resp.received_toMem]
  have hwhole : ¬ (env.header.1.length < responseHeaderSize ∨
      resp.magic ≠ protocolMagic ∨ resp.version ≠ protocolVersion) := by
    rw [hheader, resp.length_toMem, hmagic, hversion]
    simp
  have hempty : resp.contentLen = 0 ↔ content = [] := by
    rw [← List.length_eq_zero_iff, ← hlen, ← UInt32.toNat_inj, UInt32.toNat_zero]
  have hcontent : env.content =
      if resp.status = .matched ∧ content ≠ [] then some content else none := by
    unfold Surroundings.content
    dsimp only
    rw [hresp, if_neg hwhole, if_pos h.allocates, hlen, int_eq (by omega) (by omega),
      Int.toNat_natCast, hdelivers.receive]
    by_cases hmatched : resp.status = .matched ∧ content ≠ []
    · rw [if_pos hmatched, if_neg]
      rintro (hzero | hother)
      · exact hmatched.2 (hempty.mp hzero)
      · exact hother ((ResponseStatus.code_eq_iff _).mpr hmatched.1)
    · rw [if_neg hmatched, if_pos]
      rcases Decidable.not_and_iff_or_not.mp hmatched with hother | hnothing
      · exact .inr fun hcode => hother ((ResponseStatus.code_eq_iff _).mp hcode)
      · exact .inl (hempty.mpr (Decidable.not_not.mp hnothing))
  unfold main
  rw [if_neg h.input, if_pos h.connects, hcontent]
  by_cases hmatched : resp.status = .matched ∧ content ≠ []
  · rw [if_pos hmatched, if_pos hmatched]
  · rw [if_neg hmatched, if_neg hmatched]

end Hooked

/-- The connection that reads the request of a hook with this input. -/
def hookConnection (input : Bytes) : Connection where
  received := some ⟨(buildRequest (Str.ofMem input)).toMem,
    Nat.le_of_eq (RequestMsg.length_toMem (sized_buildRequest _))⟩
  stack := ⟨List.replicate requestHeaderSize 0, length_zeros⟩
  contentBuf := fun _ => 0
  dir := none

/-- The hook when the content comes in one piece. -/
def hookAtOnce (g : Router) (input : { d : Bytes // d.length ≤ maxInput - 1 }) : Surroundings where
  input := input
  connects := true
  header := match (processConnection g (hookConnection input.1)).reply with
    | some (resp, _) => ⟨resp.toMem, Nat.le_of_eq resp.length_toMem⟩
    | none => ⟨[], Nat.zero_le _⟩
  allocates := true
  body := fun _ size => match (processConnection g (hookConnection input.1)).reply with
    | some (_, content) => ⟨content.take size, List.length_take_le _ _⟩
    | none => ⟨[], Nat.zero_le _⟩

theorem hooked_atOnce (g : Router) (input : { d : Bytes // d.length ≤ maxInput - 1 })
    (hne : input.1 ≠ []) : Hooked g (hookAtOnce g input) (hookConnection input.1) where
  input := hne
  connects := rfl
  allocates := rfl
  sent := rfl
  reply := by
    intro resp content hreply
    have hheader : (hookAtOnce g input).header.1 = resp.toMem := by
      unfold hookAtOnce
      dsimp only
      rw [hreply]
    have hbody : ((hookAtOnce g input).body 0 content.length).1 = content := by
      unfold hookAtOnce
      dsimp only
      rw [hreply]
      exact List.take_length
    refine ⟨hheader, ?_⟩
    by_cases hnil : content = []
    · rw [hnil]
      exact .nothing 0
    · rw [← List.append_nil content] at hbody
      have hwhole := Delivers.part hnil (hbody.trans (List.append_nil content)) (.nothing 1)
      rwa [List.append_nil] at hwhole

/-! ## What a hook prints -/

/-- The choice is within the buffer. -/
theorem length_joined_greedy_le (g : Router) (session : Str) (bufSize : Int) (hle : 0 ≤ bufSize)
    (ranking : List Nat) :
    ((g.joined (g.greedy session bufSize ranking)).length : Int) ≤ bufSize := by
  induction ranking using List.reverseRecOn with
  | nil => exact hle
  | append_singleton ranking x ih =>
    rw [Router.greedy, List.foldl_concat]
    unfold Router.pick
    split
    next hpick => exact hpick.2.2
    next => exact ih

/-- Skills that there are have some content. -/
theorem Routable.joined_eq_nil {g : Router} (hg : Routable g) {chosen : List Nat}
    (hvalid : ∀ x ∈ chosen, g.Valid x) : g.joined chosen = [] ↔ chosen = [] := by
  induction chosen using List.reverseRecOn with
  | nil => exact iff_of_true rfl rfl
  | append_singleton chosen x _ =>
    have hpos := (hg.sizes _ (Router.mem_live_skill (hvalid x (by simp)))).1
    have hlen := g.length_joined_concat chosen x
    refine iff_of_false (fun hnil => ?_) (by simp)
    rw [hnil, List.length_nil] at hlen
    omega

section Prints

variable {g : Router} {env : Surroundings} {c : Connection}

/-- The reply to a request that is routed and answered with the greedy choice. -/
theorem reply_of_selects {req : RequestMsg} {ranking : List Nat}
    (hselects : Selects g req maxResponseContent ranking
      (handleRequest g req c.contentBuf maxResponseContent 0)) :
    ∃ resp, (route g c req).reply =
        some (resp, g.joined (g.greedy req.session maxResponseContent ranking)) ∧
      resp.magic = protocolMagic ∧ resp.version = protocolVersion ∧
      (resp.status = .matched ↔ g.greedy req.session maxResponseContent ranking ≠ []) ∧
      resp.contentLen.toNat =
        (g.joined (g.greedy req.session maxResponseContent ranking)).length := by
  have hle := length_joined_greedy_le g req.session maxResponseContent (by decide) ranking
  have hbuf : (maxResponseContent : Int) = 24576 := rfl
  have htotal := hselects.total
  refine ⟨_, congrArg some (Prod.ext rfl ?_), rfl, rfl, hselects.matched, ?_⟩
  · dsimp only
    rw [← hselects.content]
    split
    next => rfl
    next hzero =>
      have hnone :
          (handleRequest g req c.contentBuf maxResponseContent 0).totalBytes.toNat = 0 := by
        omega
      rw [hnone]
      rfl
  · dsimp only
    rw [htotal, UInt32.toNat_ofNat']
    omega

/-- A hook that is no control command prints the content of the greedy choice from the skills
of all rules that match it, and an empty object exactly when nothing is chosen. What it prints
is the text of an object, and the string in it reads as that content without its control
bytes. -/
theorem hook_prints (hreached : Reached g)
    (hroom : g.dedup.count + maxSkillsPerResponse ≤ maxDedupEntries) (h : Hooked g env c)
    (hroutes : env.request.command? = none) (signed : Bool) :
    ∃ ranking chosen, RankedSkills (g.matching env.request) ranking ∧
      chosen = g.greedy env.request.session maxResponseContent ranking ∧
      ((main signed env).printed = printf "\x7b\x7d" ↔ chosen = []) ∧
      (chosen ≠ [] →
        (main signed env).printed = (outputItems (g.joined chosen)).bytes ∧
        Json.IsObjectText (outputItems (g.joined chosen)) ∧
        outputHead <+: (main signed env).printed ∧
        Json.lexString ((main signed env).printed.drop outputHead.length) =
          some (kept (g.joined chosen), printf "\x7d\x7d")) := by
  have hg : Routable g.counted :=
    have hstocked := hreached.stocked
    ⟨hstocked.distinct, hstocked.sizes, hstocked.fileRules, hstocked.bashRules, hroom⟩
  have hcorrect : Correct g.counted env.request maxResponseContent
      (handleRequest g.counted env.request c.contentBuf maxResponseContent 0) := by
    refine (correct_iff_capHarmless hg _ (by decide) (by decide) 0).mpr ?_
    exact (rankingKept_of_wired hreached.wired env.request).capHarmless maxResponseContent
  obtain ⟨ranking, hranked, hselects⟩ := hcorrect
  have hreply : (processConnection g c).reply = (route g.counted c env.request).reply := by
    rw [processConnection_eq, h.accepted]
    dsimp only
    rw [hroutes]
  obtain ⟨resp, hresp, hmagic, hversion, hmatched, hlen⟩ := reply_of_selects hselects
  have hle := length_joined_greedy_le g.counted env.request.session maxResponseContent (by decide)
    ranking
  have hbuf : (maxResponseContent : Int) = 24576 := rfl
  have hvalid : ∀ x ∈ g.counted.greedy env.request.session maxResponseContent ranking,
      g.counted.Valid x := fun x hx =>
    hg.valid_ranking hranked (fun _ => id) x (not_injected_of_mem_greedy hx).1
  have hprinted := h.printed signed (hreply.trans hresp) hmagic hversion hlen (by omega)
  have hempty := hg.joined_eq_nil hvalid
  by_cases hchosen : g.counted.greedy env.request.session maxResponseContent ranking = []
  · rw [if_neg fun hboth => hboth.2 (hempty.mpr hchosen)] at hprinted
    exact ⟨ranking, _, hranked, rfl, iff_of_true hprinted hchosen,
      fun hsome => absurd hchosen hsome⟩
  · rw [if_pos ⟨hmatched.mpr hchosen, mt hempty.mp hchosen⟩] at hprinted
    have hhead : outputHead <+: (main signed env).printed := by
      rw [hprinted, output, List.append_assoc]
      exact List.prefix_append _ _
    refine ⟨ranking, _, hranked, rfl, iff_of_false (fun hobject => ?_) hchosen, fun _ => ?_⟩
    · -- the head is longer than an empty object
      rw [hobject] at hhead
      exact absurd hhead.length_le (by decide)
    · refine ⟨?_, isObjectText_outputItems _, hhead, ?_⟩
      · rw [hprinted]
        exact (bytes_outputItems signed _).symm
      · rw [hprinted, output, List.append_assoc, List.drop_left, printJsonEscaped_eq]
        exact Json.lexString_bytes (decode_contentLiteral _)

end Prints

/-- A hook for a Swift file. -/
def swiftHook : { d : Bytes // d.length ≤ maxInput - 1 } :=
  ⟨printf "\x7b\"tool_name\":\"Read\",\"file_path\":\"a.swift\",\"session_id\":\"s\"\x7d",
    by decide⟩

theorem hook_prints_swift :
    ∃ ranking chosen,
      RankedSkills (swapped.matching (hookAtOnce swapped swiftHook).request) ranking ∧
      chosen = swapped.greedy (hookAtOnce swapped swiftHook).request.session maxResponseContent
        ranking ∧
      ((main true (hookAtOnce swapped swiftHook)).printed = printf "\x7b\x7d" ↔ chosen = []) ∧
      (chosen ≠ [] →
        (main true (hookAtOnce swapped swiftHook)).printed =
          (outputItems (swapped.joined chosen)).bytes ∧
        Json.IsObjectText (outputItems (swapped.joined chosen)) ∧
        outputHead <+: (main true (hookAtOnce swapped swiftHook)).printed ∧
        Json.lexString ((main true (hookAtOnce swapped swiftHook)).printed.drop
          outputHead.length) = some (kept (swapped.joined chosen), printf "\x7d\x7d")) :=
  hook_prints reached_swapped (by decide +kernel) (hooked_atOnce swapped swiftHook (by decide))
    (by decide +kernel) true

/-! ## Hooks that are control commands -/

/-- The names of tools that are routed. -/
def toolNames : List Str := ["Read", "Edit", "MultiEdit", "Write", "Bash"].map Str.lit

theorem parseToolType_eq_unknown (name : Str) :
    parseToolType name = .unknown ↔ name ∉ toolNames := by
  unfold parseToolType toolNames
  simp only [List.map_cons, List.map_nil, List.mem_cons, List.not_mem_nil, or_false, not_or]
  repeat' split
  all_goals simp [*]

/-- Loading skills touches the skills and the mappings only. -/
theorem loadAllSkills_frame (g : Router) (dir : Dir) :
    ∃ skills space, loadAllSkills g dir = { g with skills := skills, space := space } := by
  rw [loadAllSkills_eq]
  induction dir.entries generalizing g with
  | nil => exact ⟨g.skills, g.space, rfl⟩
  | cons entry entries ih =>
    have hentry : ∃ skills space,
        loadEntry g entry = { g with skills := skills, space := space } := by
      unfold loadEntry mmapSkill
      repeat' split
      all_goals exact ⟨_, _, rfl⟩
    obtain ⟨skills, space, hentry⟩ := hentry
    obtain ⟨skills', space', hrest⟩ := ih (loadEntry g entry)
    rw [List.foldl_cons, hrest, hentry]
    exact ⟨skills', space', rfl⟩

theorem running_reload (g : Router) (dir : Dir) : (reload g dir).running = g.running := by
  obtain ⟨skills, space, hload⟩ := loadAllSkills_frame (unloadAllSkills g) dir
  have hrunning : (reload g dir).running = (loadAllSkills (unloadAllSkills g) dir).running := by
    unfold reload loadRules
    dsimp only
  rw [hrunning, hload]
  rfl

section Commands

variable {g : Router} {env : Surroundings} {c : Connection}

/-- The command that a hook is. -/
theorem Hooked.command (h : Hooked g env c) (command : Command) :
    c.command = some command ↔
      extracted (Str.ofMem env.input.1) "tool_name" 64 ∉ toolNames ∧
        command.text.bytes <+:
          (extracted (Str.ofMem env.input.1) "file_path" maxPathLen).bytes := by
  have hcommand : c.command = env.request.command? := by
    rw [Connection.command, h.accepted]
    rfl
  have hpath : env.request.pathStr = hookPath (Str.ofMem env.input.1) := pathStr_buildRequest _
  have hcode : env.request.toolType = (hookTool (Str.ofMem env.input.1)).code := rfl
  rw [hcommand, ← parseToolType_eq_unknown]
  by_cases htool : hookTool (Str.ofMem env.input.1) = .unknown
  · rw [command?_eq_some (by rw [hcode, htool]), hpath, hookPath, if_neg (by rw [htool]; decide)]
    exact (and_iff_right htool).symm
  · have hother : env.request.toolType ≠ ToolType.unknown.code := by
      rw [hcode]
      revert htool
      cases hookTool (Str.ofMem env.input.1) <;> decide
    rw [command?_of_tool hother]
    exact iff_of_false (by simp) fun hboth => htool hboth.1

/-- A hook is a control command just when its tool is none of the five and its file is called
like the command or something longer. The daemon then does what the command asks for, and the
hook prints an empty object. Any other hook leaves the daemon running. -/
theorem hook_command (h : Hooked g env c) :
    (∀ command, c.command = some command ↔
      extracted (Str.ofMem env.input.1) "tool_name" 64 ∉ toolNames ∧
        command.text.bytes <+:
          (extracted (Str.ofMem env.input.1) "file_path" maxPathLen).bytes) ∧
      (∀ command, c.command = some command →
        processConnection g c = command.serve g.counted c.dir ∧
        (processConnection g c).reply = some (ResponseMsg.plain .matched, []) ∧
        ∀ signed, (main signed env).printed = printf "\x7b\x7d") ∧
      ((processConnection g c).state.running = false ↔
        g.running = false ∨ c.command = some .shutdown) := by
  have hcommand : c.command = env.request.command? := by
    rw [Connection.command, h.accepted]
    rfl
  refine ⟨h.command, fun command hcarries => ?_, ?_⟩
  · have hserved : processConnection g c = command.serve g.counted c.dir := by
      rw [hcommand] at hcarries
      rw [processConnection_eq, h.accepted]
      dsimp only
      rw [hcarries]
    have hreply : (processConnection g c).reply = some (ResponseMsg.plain .matched, []) := by
      rw [hserved]
      cases command <;> rfl
    refine ⟨hserved, hreply, fun signed => ?_⟩
    rw [h.printed signed hreply rfl rfl rfl (by decide), if_neg fun hboth => hboth.2 rfl]
  · rw [hcommand, processConnection_eq, h.accepted]
    dsimp only
    cases env.request.command? with
    | none =>
      obtain ⟨totalMatches, totalDeduped, hstate⟩ := route_state g.counted c env.request
      dsimp only
      rw [hstate]
      simp [Router.counted]
    | some command =>
      cases command with
      | ping => simp [Command.serve, Router.counted]
      | shutdown => simp [Command.serve]
      | reload =>
        have hrunning : (Command.reload.serve g.counted c.dir).state.running = g.running :=
          running_reload g.counted c.dir
        dsimp only
        rw [hrunning]
        simp

end Commands

/-- A hook of another tool for a file that is called SHUTDOWN. -/
def shutdownHook : { d : Bytes // d.length ≤ maxInput - 1 } :=
  ⟨printf "\x7b\"tool_name\":\"Grep\",\"file_path\":\"SHUTDOWN.md\"\x7d", by decide⟩

theorem hook_command_shutdown :
    (∀ command, (hookConnection shutdownHook.1).command = some command ↔
      extracted (Str.ofMem shutdownHook.1) "tool_name" 64 ∉ toolNames ∧
        command.text.bytes <+:
          (extracted (Str.ofMem shutdownHook.1) "file_path" maxPathLen).bytes) ∧
      (∀ command, (hookConnection shutdownHook.1).command = some command →
        processConnection swapped (hookConnection shutdownHook.1) =
          command.serve swapped.counted none ∧
        (processConnection swapped (hookConnection shutdownHook.1)).reply =
          some (ResponseMsg.plain .matched, []) ∧
        ∀ signed, (main signed (hookAtOnce swapped shutdownHook)).printed = printf "\x7b\x7d") ∧
      ((processConnection swapped (hookConnection shutdownHook.1)).state.running = false ↔
        swapped.running = false ∨ (hookConnection shutdownHook.1).command = some .shutdown) :=
  hook_command (hooked_atOnce swapped shutdownHook (by decide))

end Sockd.Reference
