import Sockd.Json.Grammar
import Sockd.Reference.Requests

/-!
# The client of the reference router (`reference/router-client.c`)

`main` reads the JSON text of a hook from its input, takes four fields out of it, sends a
request to the daemon and prints the content that it receives in a JSON text of its own.
What the calls of `main` find is an argument. The two hand-written pieces of JSON are
`extract_json_string`, a search for `"key":"` and a loop over what is behind it, and
`print_json_escaped`.

Whatever content there is, what is printed is the text of an object, and the string in it
ends where `main` ends it (`printed_lexed`): no byte of the content is taken for the end of
the string, and only control bytes are lost.
-/

namespace Sockd.Reference

open C

/-! ## JSON field extraction -/

/-- `MAX_INPUT`. -/
def maxInput : Nat := 16384

/-- What `snprintf` leaves in the 256 bytes of a pattern: `"key`, and the rest of the format. -/
def fieldPattern (key : Str) (rest : String) : Str :=
  (Str.lit "\"" ++ key ++ Str.lit rest).truncate 255

/-- Where the pattern is in the text, and its length: `start - json` and `skip`. -/
def findField (json key : Str) : Option (Nat × Nat) :=
  let pattern := fieldPattern key "\":\""
  let pattern2 := fieldPattern key "\": \""
  match json.strstrAt pattern with
  | some start => some (start, pattern.strlen)
  | none => (json.strstrAt pattern2).map fun start => (start, pattern2.strlen)

/-- What is stored for the character behind a reverse solidus. -/
def unescaped (b : UInt8) : UInt8 :=
  if b = 0x6e then 0x0a else if b = 0x74 then 0x09 else b

/-- The loop of `extract_json_string` from `start` on: the array and `i` at its end. -/
def copyValue (outSize : Int) : Bytes → Buffer → Int → Buffer × Int
  | b :: next :: rest, out, i =>
    if b ≠ Json.quote ∧ i < outSize - 1 then
      if b = Json.backslash then copyValue outSize rest (out.set i (unescaped next)) (i + 1)
      else copyValue outSize (next :: rest) (out.set i b) (i + 1)
    else (out, i)
  | [b], out, i => if b ≠ Json.quote ∧ i < outSize - 1 then (out.set i b, i + 1) else (out, i)
  | [], out, i => (out, i)

/-- `extract_json_string`: the array and the result. -/
def extractJsonString (json key : Str) (out : Buffer) (outSize : Int) : Buffer × Int :=
  match findField json key with
  | none => (out, 0)
  | some (start, skip) =>
    let (out, i) := copyValue outSize (json.bytes.drop (start + skip)) out 0
    (out.set i 0, i)

/-! ## The request -/

/-- `parse_tool_type`. -/
def parseToolType (name : Str) : ToolType :=
  if name = Str.lit "Read" then .read
  else if name = Str.lit "Edit" then .edit
  else if name = Str.lit "MultiEdit" then .multiedit
  else if name = Str.lit "Write" then .write
  else if name = Str.lit "Bash" then .bash
  else .unknown

/-- The string that `main` takes out of its input, in an array of this size. -/
def extracted (input : Str) (key : String) (size : Nat) : Str :=
  Str.ofMem ((extractJsonString input (Str.lit key) (fun _ => 0) size).1.first size)

/-- The request that `main` builds. -/
def buildRequest (input : Str) : RequestMsg :=
  let toolName := extracted input "tool_name" 64
  let filePath := extracted input "file_path" maxPathLen
  let command := extracted input "command" maxPathLen
  let sessionId := extracted input "session_id" sessionIdLen
  let toolType := parseToolType toolName
  let path := if toolType = .bash then command else filePath
  let pathLen := if path.strlen > maxPathLen - 1 then maxPathLen - 1 else path.strlen
  { magic := protocolMagic
    version := protocolVersion
    toolType := toolType.code
    pathLen := UInt16.ofNat pathLen
    sessionId := ((Field.zero 63).strncpy sessionId).bytes
    path := path.bytes.take pathLen ++ List.replicate (maxPathLen - pathLen) 0 }

/-! ## The response -/

/-- The bytes that `printf` writes for a format without conversions. -/
def printf (s : String) : Bytes := Bytes.encode s.toList

/-- What is printed for a character. -/
def printEscaped (c : Int) : Bytes :=
  if c = 0x22 then printf "\\\""
  else if c = 0x5c then printf "\\\\"
  else if c = 0x0a then printf "\\n"
  else if c = 0x0d then printf "\\r"
  else if c = 0x09 then printf "\\t"
  else if 32 ≤ unsignedChar c then [unsignedChar c]
  else []

/-- `print_json_escaped`, on a machine whose `char` is signed or not. -/
def printJsonEscaped (signed : Bool) (data : Bytes) : Bytes :=
  data.flatMap fun b => printEscaped (char signed b)

/-- What `main` prints before the content, up to the opening quotation mark. -/
def outputHead : Bytes :=
  printf "\x7b\"hookSpecificOutput\":\x7b\"hookEventName\":\"PreToolUse\",\"additionalContext\":\""

/-- What it prints after the content, from the closing quotation mark on. -/
def outputTail : Bytes := printf "\"\x7d\x7d"

/-- What it prints for this content. -/
def output (signed : Bool) (content : Bytes) : Bytes :=
  outputHead ++ printJsonEscaped signed content ++ outputTail

/-- A `ResponseMsg` as it is received, with any byte for its status. -/
structure ReceivedMsg where
  magic : UInt32
  version : UInt8
  status : UInt8
  contentLen : UInt32

/-- The fields that `main` looks at in the packed struct at the start of `mem`. -/
def ReceivedMsg.ofMem (mem : Bytes) : ReceivedMsg where
  magic := UInt32.ofNat (Bytes.ofBe (mem.take 4).reverse)
  version := mem.getD 4 0
  status := mem.getD 5 0
  contentLen := UInt32.ofNat (Bytes.ofBe ((mem.drop 8).take 4).reverse)

/-- `STATUS_MATCHED`. -/
def statusMatched : UInt8 := 1

/-- What the calls of `main` find: the input, whether there is a connection to the daemon,
what the first `read` of the socket and the later ones deliver (nothing when they fail), and
whether `malloc` succeeds. -/
structure Surroundings where
  input : { d : Bytes // d.length ≤ maxInput - 1 }
  connects : Bool
  header : { d : Bytes // d.length ≤ responseHeaderSize }
  allocates : Bool
  body : Nat → (size : Nat) → { d : Bytes // d.length ≤ size }

/-- The loop that receives the content: `left` is `content_len - total_read`, and `round`
counts the reads. -/
def receive (body : Nat → (size : Nat) → { d : Bytes // d.length ≤ size }) (round left : Nat) :
    Bytes :=
  if left = 0 then []
  else
    match (body round left).1 with
    | [] => []
    | b :: bs => b :: bs ++ receive body (round + 1) (left - (b :: bs).length)
termination_by left
decreasing_by
  exact Nat.sub_lt (Nat.pos_of_ne_zero (by assumption)) (Nat.succ_pos _)

/-- What `main` does: the request that it sends, if it does, and what it prints. -/
structure Answer where
  sent : Option RequestMsg
  printed : Bytes

/-- The content that `main` receives, if it gets so far. -/
def Surroundings.content (env : Surroundings) : Option Bytes :=
  let resp := ReceivedMsg.ofMem env.header.1
  if env.header.1.length < responseHeaderSize ∨ resp.magic ≠ protocolMagic ∨
      resp.version ≠ protocolVersion then none
  else if resp.contentLen = 0 ∨ resp.status ≠ statusMatched then none
  else if env.allocates then
    -- the comparison is one of `int`s, so a length from 2^31 on is negative
    some (receive env.body 0 (int resp.contentLen.toNat).toNat)
  else none

/-- `main`. -/
def main (signed : Bool) (env : Surroundings) : Answer :=
  if env.input.1 = [] then ⟨none, printf "\x7b\x7d"⟩
  else if env.connects then
    match env.content with
    | none => ⟨some (buildRequest (Str.ofMem env.input.1)), printf "\x7b\x7d"⟩
    | some content => ⟨some (buildRequest (Str.ofMem env.input.1)), output signed content⟩
  else ⟨none, printf "\x7b\x7d"⟩

/-! ## What is printed for the content -/

/-- The byte is no control byte, or it is a line feed, a carriage return or a tabulator. -/
def IsKept (b : UInt8) : Prop := 32 ≤ b ∨ b = 0x0a ∨ b = 0x0d ∨ b = 0x09

instance (b : UInt8) : Decidable (IsKept b) := inferInstanceAs (Decidable (_ ∨ _))

/-- What is kept of the content. -/
def kept (content : Bytes) : Bytes := content.filter fun b => IsKept b

theorem kept_cons_of_pos {b : UInt8} (h : IsKept b) (content : Bytes) :
    kept (b :: content) = b :: kept content := List.filter_cons_of_pos (decide_eq_true h)

theorem kept_cons_of_neg {b : UInt8} (h : ¬ IsKept b) (content : Bytes) :
    kept (b :: content) = kept content := List.filter_cons_of_neg (by simpa using h)

/-- What is printed for a byte, as a piece of a JSON string. -/
def pieceOf (b : UInt8) : Option Json.Piece :=
  if b = 0x22 then some (.short .quote)
  else if b = 0x5c then some (.short .backslash)
  else if b = 0x0a then some (.short .n)
  else if b = 0x0d then some (.short .r)
  else if b = 0x09 then some (.short .t)
  else if h : Json.IsPlain b then some (.plain b h)
  else none

theorem printEscaped_char (signed : Bool) (b : UInt8) :
    printEscaped (char signed b) = ((pieceOf b).map Json.Piece.bytes).getD [] := by
  have hcase : ∀ c : UInt8, c.toNat < 128 → (char signed b = (c.toNat : Int) ↔ b = c) :=
    fun c hc => (char_eq_iff signed b hc).trans UInt8.toNat_inj
  have hquote : char signed b = 0x22 ↔ b = 0x22 := hcase 0x22 (by decide)
  have hbackslash : char signed b = 0x5c ↔ b = 0x5c := hcase 0x5c (by decide)
  have hn : char signed b = 0x0a ↔ b = 0x0a := hcase 0x0a (by decide)
  have hr : char signed b = 0x0d ↔ b = 0x0d := hcase 0x0d (by decide)
  have ht : char signed b = 0x09 ↔ b = 0x09 := hcase 0x09 (by decide)
  unfold printEscaped pieceOf
  rw [unsignedChar_char]
  simp only [hquote, hbackslash, hn, hr, ht]
  by_cases h₁ : b = 0x22
  · rw [if_pos h₁, if_pos h₁]
    rfl
  rw [if_neg h₁, if_neg h₁]
  by_cases h₂ : b = 0x5c
  · rw [if_pos h₂, if_pos h₂]
    rfl
  rw [if_neg h₂, if_neg h₂]
  by_cases h₃ : b = 0x0a
  · rw [if_pos h₃, if_pos h₃]
    rfl
  rw [if_neg h₃, if_neg h₃]
  by_cases h₄ : b = 0x0d
  · rw [if_pos h₄, if_pos h₄]
    rfl
  rw [if_neg h₄, if_neg h₄]
  by_cases h₅ : b = 0x09
  · rw [if_pos h₅, if_pos h₅]
    rfl
  rw [if_neg h₅, if_neg h₅]
  by_cases h₆ : 32 ≤ b
  · rw [if_pos h₆, dif_pos ⟨h₆, h₁, h₂⟩]
    rfl
  · rw [if_neg h₆, dif_neg fun h => h₆ h.1]
    rfl

/-- The content as it is printed, in pieces. -/
def contentLiteral (content : Bytes) : Json.Literal := content.filterMap pieceOf

/-- Nothing else is printed. -/
theorem printJsonEscaped_eq (signed : Bool) (content : Bytes) :
    printJsonEscaped signed content = (contentLiteral content).bytes := by
  induction content with
  | nil => rfl
  | cons b content ih =>
    have htail : printJsonEscaped signed (b :: content) =
        printEscaped (char signed b) ++ printJsonEscaped signed content := List.flatMap_cons
    rw [htail, ih, printEscaped_char, contentLiteral, contentLiteral, List.filterMap_cons]
    cases pieceOf b with
    | none => rfl
    | some p => exact (Json.Literal.bytes_cons p _).symm

/-- The pieces spell what is kept. -/
theorem decode_contentLiteral (content : Bytes) :
    (contentLiteral content).decode = some (kept content) := by
  induction content with
  | nil => rfl
  | cons b content ih =>
    have htail : Json.Literal.decodeFrom none (contentLiteral content) = some (kept content) := ih
    have hshort : ∀ e : Json.Escape, pieceOf e.value = some (.short e) → IsKept e.value →
        (contentLiteral (e.value :: content)).decode = some (kept (e.value :: content)) := by
      intro e he hkept
      rw [contentLiteral, List.filterMap_cons, he, kept_cons_of_pos hkept]
      show (Json.Literal.decodeFrom none (contentLiteral content)).map _ = _
      rw [htail]
      rfl
    by_cases h₁ : b = 0x22
    · subst h₁
      exact hshort .quote rfl (by decide)
    by_cases h₂ : b = 0x5c
    · subst h₂
      exact hshort .backslash rfl (by decide)
    by_cases h₃ : b = 0x0a
    · subst h₃
      exact hshort .n rfl (by decide)
    by_cases h₄ : b = 0x0d
    · subst h₄
      exact hshort .r rfl (by decide)
    by_cases h₅ : b = 0x09
    · subst h₅
      exact hshort .t rfl (by decide)
    by_cases h₆ : 32 ≤ b
    · have hplain : pieceOf b = some (.plain b ⟨h₆, h₁, h₂⟩) := by
        rw [pieceOf, if_neg h₁, if_neg h₂, if_neg h₃, if_neg h₄, if_neg h₅, dif_pos ⟨h₆, h₁, h₂⟩]
      rw [contentLiteral, List.filterMap_cons, hplain, kept_cons_of_pos (.inl h₆)]
      show (Json.Literal.decodeFrom none (contentLiteral content)).map _ = _
      rw [htail]
      rfl
    · have hnone : pieceOf b = none := by
        rw [pieceOf, if_neg h₁, if_neg h₂, if_neg h₃, if_neg h₄, if_neg h₅,
          dif_neg fun h => h₆ h.1]
      have hlost : ¬ IsKept b := by
        rintro (h | h | h | h)
        · exact h₆ h
        · exact h₃ h
        · exact h₄ h
        · exact h₅ h
      rw [contentLiteral, List.filterMap_cons, hnone, kept_cons_of_neg hlost]
      exact ih

/-- The text that is printed, item by item. -/
def outputItems (content : Bytes) : Json.Items :=
  let name (s : String) : Json.Item := .string .key (.ofPlain (printf s))
  let event : Json.Items :=
    [name "hookEventName", .mark Json.colon, .string .value (.ofPlain (printf "PreToolUse"))]
  let context : Json.Items :=
    [name "additionalContext", .mark Json.colon, .string .value (contentLiteral content)]
  let inner : Json.Items := .mark 0x7b :: ((event ++ .mark Json.comma :: context) ++ [.mark 0x7d])
  .mark 0x7b :: ((name "hookSpecificOutput" :: .mark Json.colon :: inner) ++ [.mark 0x7d])

theorem isObjectText_outputItems (content : Bytes) : Json.IsObjectText (outputItems content) := by
  refine .tight (.object (.tightMember (.nested (.object (.members ?_ ?_)))))
  · exact .tightMember .string
  · exact .tightMember .string

theorem bytes_outputItems (signed : Bool) (content : Bytes) :
    (outputItems content).bytes = output signed content := by
  have hspecific : (Json.Literal.ofPlain (printf "hookSpecificOutput")).bytes =
      printf "hookSpecificOutput" := Json.Literal.bytes_ofPlain rfl
  have hevent : (Json.Literal.ofPlain (printf "hookEventName")).bytes = printf "hookEventName" :=
    Json.Literal.bytes_ofPlain rfl
  have htool : (Json.Literal.ofPlain (printf "PreToolUse")).bytes = printf "PreToolUse" :=
    Json.Literal.bytes_ofPlain rfl
  have hcontext : (Json.Literal.ofPlain (printf "additionalContext")).bytes =
      printf "additionalContext" := Json.Literal.bytes_ofPlain rfl
  rw [output, printJsonEscaped_eq]
  simp only [outputItems, List.cons_append, List.nil_append, Json.Items.bytes_cons,
    Json.Items.bytes_nil, Json.Item.bytes_string_append, hspecific, hevent, htool, hcontext]
  rfl

/-- Whatever the content, the string begins behind what is printed before it, ends at the
quotation mark that is printed after it, has no control byte in it and spells what is kept of
the content; and the text is that of an object. -/
theorem printed_lexed (signed : Bool) (content : Bytes) :
    outputHead.getLast? = some Json.quote ∧
      Json.lexString (printJsonEscaped signed content ++ outputTail) =
        some (kept content, printf "\x7d\x7d") ∧
      (∀ b ∈ printJsonEscaped signed content, 32 ≤ b) ∧
      Json.IsObjectText (outputItems content) ∧
      (outputItems content).bytes = output signed content := by
  refine ⟨by decide, ?_, ?_, isObjectText_outputItems content, bytes_outputItems signed content⟩
  · rw [printJsonEscaped_eq]
    exact Json.lexString_bytes (decode_contentLiteral content)
  · rw [printJsonEscaped_eq]
    exact (contentLiteral content).printable

end Sockd.Reference
