import Sockd.Reference.Client

/-!
# The messages of the reference router as bytes (`reference/protocol.h`)

Both structs are packed and their integers are little-endian. `RequestMsg.toMem` is what
the client's `write` sends and `ResponseMsg.toMem` what the daemon's does; the other end
reads the fields back (`ofMem_toMem`, `received_toMem`).
-/

namespace Sockd.Reference

open C

/-! ## Little-endian integers -/

/-- The low `w` bytes of `n`, least significant first. -/
def le (w n : Nat) : Bytes := (Bytes.be w n).reverse

@[simp] theorem length_le (w n : Nat) : (le w n).length = w := by
  rw [le, List.length_reverse, Bytes.length_be]

/-- A number that fits survives. -/
theorem ofBe_reverse_le {w n : Nat} (h : n < 256 ^ w) : Bytes.ofBe (le w n).reverse = n := by
  rw [le, List.reverse_reverse, Bytes.ofBe_be_of_lt h]

/-- What is behind an integer. -/
theorem drop_le_append (w n k : Nat) (rest : Bytes) :
    (le w n ++ rest).drop (w + k) = rest.drop k := by
  rw [← List.drop_drop, List.drop_left' (length_le w n)]

theorem getD_le_append (w n k : Nat) (rest : Bytes) :
    (le w n ++ rest).getD (w + k) 0 = rest.getD k 0 := by
  rw [List.getD_eq_getElem?_getD, List.getD_eq_getElem?_getD, ← List.getElem?_drop,
    List.drop_left' (length_le w n)]

/-! ## `RequestMsg` -/

/-- A stack frame of zeros has room for the header. -/
theorem length_zeros : (List.replicate requestHeaderSize (0 : UInt8)).length = requestHeaderSize :=
  List.length_replicate

namespace RequestMsg

/-- The bytes of the struct. -/
def toMem (req : RequestMsg) : Bytes :=
  le 4 req.magic.toNat ++ ([req.version, req.toolType] ++ (le 2 req.pathLen.toNat ++
    (req.sessionId ++ req.path)))

/-- The two arrays have their sizes. -/
structure Sized (req : RequestMsg) : Prop where
  sessionId : req.sessionId.length = sessionIdLen
  path : req.path.length = maxPathLen

variable {req : RequestMsg}

theorem length_toMem (h : req.Sized) : req.toMem.length = requestHeaderSize := by
  simp only [toMem, List.length_append, length_le, h.sessionId, h.path, List.length_cons,
    List.length_nil]
  rfl

/-- The fields of a struct at the start of the memory are read back. -/
theorem ofMem_toMem (h : req.Sized) (rest : Bytes) : ofMem (req.toMem ++ rest) = req := by
  obtain ⟨magic, version, toolType, pathLen, sessionId, path⟩ := req
  obtain ⟨hsession, hpath⟩ := h
  have hmem : toMem ⟨magic, version, toolType, pathLen, sessionId, path⟩ ++ rest =
      le 4 magic.toNat ++ (version :: toolType :: (le 2 pathLen.toNat ++
        (sessionId ++ (path ++ rest)))) := by
    simp only [toMem, List.append_assoc, List.cons_append, List.nil_append]
  have hmagic : UInt32.ofNat (Bytes.ofBe (le 4 magic.toNat).reverse) = magic := by
    rw [ofBe_reverse_le (UInt32.toNat_lt magic), UInt32.ofNat_toNat]
  have hpathLen : UInt16.ofNat (Bytes.ofBe (le 2 pathLen.toNat).reverse) = pathLen := by
    rw [ofBe_reverse_le (UInt16.toNat_lt pathLen), UInt16.ofNat_toNat]
  -- the arrays are behind eight bytes
  have harrays : ∀ k, (toMem ⟨magic, version, toolType, pathLen, sessionId, path⟩ ++ rest).drop
      (8 + k) = (sessionId ++ (path ++ rest)).drop k := fun k => by
    rw [hmem, show 8 + k = 4 + (2 + k + 1 + 1) by omega, drop_le_append, List.drop_succ_cons,
      List.drop_succ_cons, drop_le_append]
  unfold ofMem
  rw [harrays 0, harrays sessionIdLen, hmem, List.take_left' (length_le 4 _), hmagic,
    getD_le_append 4 _ 0, getD_le_append 4 _ 1, drop_le_append 4 _ 2, List.drop_succ_cons,
    List.drop_succ_cons, List.drop_zero, List.take_left' (length_le 2 _), hpathLen,
    List.drop_left' hsession, List.take_left' hpath, List.drop_zero, List.take_left' hsession]
  rfl

end RequestMsg

/-! ## `ResponseMsg` -/

/-- The byte of a status. -/
def ResponseStatus.code : ResponseStatus → UInt8
  | noMatch => 0
  | matched => statusMatched
  | deduped => 2
  | error => 3

theorem ResponseStatus.code_eq_iff (status : ResponseStatus) :
    status.code = statusMatched ↔ status = .matched := by
  cases status <;> decide

namespace ResponseMsg

/-- The bytes of the struct. -/
def toMem (resp : ResponseMsg) : Bytes :=
  le 4 resp.magic.toNat ++ ([resp.version, resp.status.code, resp.skillCount, resp.reserved] ++
    le 4 resp.contentLen.toNat)

variable (resp : ResponseMsg)

theorem length_toMem : resp.toMem.length = responseHeaderSize := by
  simp only [toMem, List.length_append, length_le, List.length_cons, List.length_nil]
  rfl

/-- What the client makes of the bytes. -/
theorem received_toMem : ReceivedMsg.ofMem resp.toMem =
    ⟨resp.magic, resp.version, resp.status.code, resp.contentLen⟩ := by
  have hmem : resp.toMem = le 4 resp.magic.toNat ++ (resp.version :: resp.status.code ::
      resp.skillCount :: resp.reserved :: le 4 resp.contentLen.toNat) := rfl
  have hmagic : UInt32.ofNat (Bytes.ofBe (le 4 resp.magic.toNat).reverse) = resp.magic := by
    rw [ofBe_reverse_le (UInt32.toNat_lt resp.magic), UInt32.ofNat_toNat]
  have hlen : UInt32.ofNat (Bytes.ofBe (le 4 resp.contentLen.toNat).reverse) =
      resp.contentLen := by
    rw [ofBe_reverse_le (UInt32.toNat_lt resp.contentLen), UInt32.ofNat_toNat]
  unfold ReceivedMsg.ofMem
  rw [hmem, List.take_left' (length_le 4 _), hmagic, getD_le_append 4 _ 0, getD_le_append 4 _ 1,
    drop_le_append 4 _ 4, List.drop_succ_cons, List.drop_succ_cons, List.drop_succ_cons,
    List.drop_succ_cons, List.drop_zero, List.take_of_length_le (length_le 4 _).le, hlen]
  rfl

end ResponseMsg

end Sockd.Reference
