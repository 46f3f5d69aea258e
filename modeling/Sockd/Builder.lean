import Mathlib.Data.List.DropRight
import Sockd.Config
import Sockd.Error

/-!
# The builder of a daemon (`DaemonBuilder`)

A callback is a closure with a state of its own, so it is known here only by which
closure it is: `Callbacks` gives the types of the three boxed closures, and the two
closures that the library puts in place itself. `BuilderCall` is one call of a setter
of a `DaemonBuilder<()>`; a use of the builder is a list of them, followed by `build`.

`requested` says what a use asks for: every setting and every callback as the last
call of its setter gave it. The setters of the settings do that. `on_start` makes a
new builder out of the settings alone, and so takes back the callbacks that were given
before it; `builder_meets_iff` says exactly when that shows.
-/

namespace Sockd

open Rust

/-- The types of the callbacks, for each type of state, and the library's own ones. -/
structure Callbacks where
  /-- `StartCallback`. -/
  Start : Type → Type
  /-- `RequestCallback`. -/
  Request : Type → Type
  /-- `StopCallback`. -/
  Stop : Type → Type
  /-- `|| Ok(())`. -/
  okStart : Start Unit
  /-- `|_| Ok(())`. -/
  okStop : (S : Type) → Stop S

variable {C : Callbacks} {S : Type}

/-- `Daemon`. -/
structure Daemon (C : Callbacks) (S : Type) where
  config : DaemonConfig
  onStart : C.Start S
  onRequest : C.Request S
  onStop : C.Stop S

/-- `DaemonBuilder`. -/
structure DaemonBuilder (C : Callbacks) (S : Type) where
  config : DaemonConfig
  onStart : C.Start S
  onRequest : Option (C.Request S)
  onStop : C.Stop S

/-- `Daemon::builder`. -/
def Daemon.builder (C : Callbacks) : DaemonBuilder C Unit where
  config := {}
  onStart := C.okStart
  onRequest := none
  onStop := C.okStop Unit

namespace DaemonBuilder

/-- `DaemonBuilder::<()>::on_start`. -/
def setOnStart (b : DaemonBuilder C Unit) (onStart : C.Start S) : DaemonBuilder C S where
  config := b.config
  onStart := onStart
  onRequest := none
  onStop := C.okStop S

/-- `DaemonBuilder::socket`. -/
def socket (b : DaemonBuilder C S) (socketPath : Path) : DaemonBuilder C S :=
  { b with config := { b.config with socketPath := socketPath } }

/-- `DaemonBuilder::pid_file`. -/
def pidFile (b : DaemonBuilder C S) (pidFile : Path) : DaemonBuilder C S :=
  { b with config := { b.config with pidFile := some pidFile } }

/-- `DaemonBuilder::idle_timeout`. -/
def idleTimeout (b : DaemonBuilder C S) (idleTimeout : Duration) : DaemonBuilder C S :=
  { b with config := { b.config with idleTimeout := idleTimeout } }

/-- `DaemonBuilder::poll_interval`. -/
def pollInterval (b : DaemonBuilder C S) (pollInterval : Duration) : DaemonBuilder C S :=
  { b with config := { b.config with pollInterval := pollInterval } }

/-- `DaemonBuilder::max_payload_len`. -/
def maxPayloadLen (b : DaemonBuilder C S) (maxPayloadLen : Nat) : DaemonBuilder C S :=
  { b with config := { b.config with maxPayloadLen := maxPayloadLen } }

/-- `DaemonBuilder::on_request`. -/
def setOnRequest (b : DaemonBuilder C S) (onRequest : C.Request S) : DaemonBuilder C S :=
  { b with onRequest := some onRequest }

/-- `DaemonBuilder::on_stop`. -/
def setOnStop (b : DaemonBuilder C S) (onStop : C.Stop S) : DaemonBuilder C S :=
  { b with onStop := onStop }

/-- `DaemonBuilder::build`. -/
def build (b : DaemonBuilder C S) : Except Error (Daemon C S) :=
  match b.onRequest with
  | some onRequest =>
    .ok { config := b.config, onStart := b.onStart, onRequest := onRequest, onStop := b.onStop }
  | none => .error (.missingCallback "on_request")

end DaemonBuilder

/-! ## Uses of the builder -/

/-- A call of a setter, with state type `()`. -/
inductive BuilderCall (C : Callbacks)
  | socket (socketPath : Path)
  | pidFile (pidFile : Path)
  | idleTimeout (idleTimeout : Duration)
  | pollInterval (pollInterval : Duration)
  | maxPayloadLen (maxPayloadLen : Nat)
  | onStart (onStart : C.Start Unit)
  | onRequest (onRequest : C.Request Unit)
  | onStop (onStop : C.Stop Unit)

/-- One call. -/
def DaemonBuilder.call (b : DaemonBuilder C Unit) : BuilderCall C → DaemonBuilder C Unit
  | .socket p => b.socket p
  | .pidFile p => b.pidFile p
  | .idleTimeout d => b.idleTimeout d
  | .pollInterval d => b.pollInterval d
  | .maxPayloadLen n => b.maxPayloadLen n
  | .onStart f => b.setOnStart f
  | .onRequest f => b.setOnRequest f
  | .onStop f => b.setOnStop f

/-- `Daemon::builder()` and then these calls. -/
def building (calls : List (BuilderCall C)) : DaemonBuilder C Unit :=
  calls.foldl DaemonBuilder.call (Daemon.builder C)

namespace BuilderCall

/-- The path that `socket` was given. -/
def socket? : BuilderCall C → Option Path
  | .socket p => some p
  | _ => none

/-- The path that `pid_file` was given. -/
def pidFile? : BuilderCall C → Option Path
  | .pidFile p => some p
  | _ => none

/-- The duration that `idle_timeout` was given. -/
def idleTimeout? : BuilderCall C → Option Duration
  | .idleTimeout d => some d
  | _ => none

/-- The duration that `poll_interval` was given. -/
def pollInterval? : BuilderCall C → Option Duration
  | .pollInterval d => some d
  | _ => none

/-- The length that `max_payload_len` was given. -/
def maxPayloadLen? : BuilderCall C → Option Nat
  | .maxPayloadLen n => some n
  | _ => none

/-- The closure that `on_start` was given. -/
def onStart? : BuilderCall C → Option (C.Start Unit)
  | .onStart f => some f
  | _ => none

/-- The closure that `on_request` was given. -/
def onRequest? : BuilderCall C → Option (C.Request Unit)
  | .onRequest f => some f
  | _ => none

/-- The closure that `on_stop` was given. -/
def onStop? : BuilderCall C → Option (C.Stop Unit)
  | .onStop f => some f
  | _ => none

/-- The call is one of `on_start`. -/
def isStart (c : BuilderCall C) : Bool := c.onStart?.isSome

end BuilderCall

open BuilderCall

/-- What the last call of a setter gave, where `get` tells its calls apart. -/
def lastGiven {α : Type} (get : BuilderCall C → Option α) (calls : List (BuilderCall C)) :
    Option α :=
  (calls.filterMap get).getLast?

/-- The daemon that a use of the builder asks for. -/
def requested (calls : List (BuilderCall C)) : Except Error (Daemon C Unit) :=
  match lastGiven onRequest? calls with
  | none => .error (.missingCallback "on_request")
  | some f => .ok {
      config := {
        socketPath := (lastGiven socket? calls).getD ["tmp", "sockd.sock"]
        pidFile := lastGiven pidFile? calls
        idleTimeout := (lastGiven idleTimeout? calls).getD (.fromSecs 300)
        pollInterval := (lastGiven pollInterval? calls).getD (.fromMillis 250)
        maxPayloadLen := (lastGiven maxPayloadLen? calls).getD defaultMaxPayloadLen }
      onStart := (lastGiven onStart? calls).getD C.okStart
      onRequest := f
      onStop := (lastGiven onStop? calls).getD (C.okStop Unit) }

/-- The calls after the last `on_start`; all calls, if there is none. -/
def sinceStart (calls : List (BuilderCall C)) : List (BuilderCall C) :=
  calls.rtakeWhile fun c => !c.isStart

section LastGiven

variable {α : Type} (get : BuilderCall C → Option α) (calls : List (BuilderCall C))
  (c : BuilderCall C)

@[simp] theorem lastGiven_nil : lastGiven get [] = none := rfl

/-- A later call of the same setter counts, a call of another one does not. -/
theorem lastGiven_concat : lastGiven get (calls ++ [c]) = (get c <|> lastGiven get calls) := by
  unfold lastGiven
  rw [List.filterMap_append]
  cases hc : get c with
  | none => simp [hc]
  | some a => simp [hc]

theorem lastGiven_eq_none_iff : lastGiven get calls = none ↔ ∀ c ∈ calls, get c = none := by
  simp [lastGiven]

end LastGiven

@[simp] theorem sinceStart_nil : sinceStart ([] : List (BuilderCall C)) = [] := rfl

/-- `on_start` starts afresh. -/
theorem sinceStart_concat (calls : List (BuilderCall C)) (c : BuilderCall C) :
    sinceStart (calls ++ [c]) = if c.isStart then [] else sinceStart calls ++ [c] := by
  unfold sinceStart
  rw [List.rtakeWhile_concat]
  cases c.isStart <;> rfl

/-- What stands in the builder after some calls: every setting as it was given last,
the two callbacks as they were given last since `on_start`. -/
theorem building_eq (calls : List (BuilderCall C)) :
    building calls = {
      config := {
        socketPath := (lastGiven socket? calls).getD ["tmp", "sockd.sock"]
        pidFile := lastGiven pidFile? calls
        idleTimeout := (lastGiven idleTimeout? calls).getD (.fromSecs 300)
        pollInterval := (lastGiven pollInterval? calls).getD (.fromMillis 250)
        maxPayloadLen := (lastGiven maxPayloadLen? calls).getD defaultMaxPayloadLen }
      onStart := (lastGiven onStart? calls).getD C.okStart
      onRequest := lastGiven onRequest? (sinceStart calls)
      onStop := (lastGiven onStop? (sinceStart calls)).getD (C.okStop Unit) } := by
  induction calls using List.reverseRecOn with
  | nil => rfl
  | append_singleton calls c ih =>
    have hcall : building (calls ++ [c]) = (building calls).call c := by
      rw [building, building, List.foldl_append]
      rfl
    rw [hcall, ih]
    simp only [lastGiven_concat, sinceStart_concat]
    cases c with
    | onStart f => rfl
    | _ => simp only [isStart, onStart?, Option.isSome_none, Bool.false_eq_true, if_false,
        lastGiven_concat]; rfl

/-- The calls of the setters of `on_request` and `on_stop` that count are those that
count anyhow: where `on_request` was called at all, it was called after the last
`on_start`, and `on_stop`, where it was called, was called after it, too, or was last
given the closure that does nothing. -/
def CallbacksLast (calls : List (BuilderCall C)) : Prop :=
  lastGiven onRequest? calls ≠ none →
    lastGiven onRequest? (sinceStart calls) ≠ none ∧
      (lastGiven onStop? (sinceStart calls) ≠ none ∨ lastGiven onStop? calls = none ∨
        lastGiven onStop? calls = some (C.okStop Unit))

/-- What was given since `on_start` is what was given last. -/
theorem lastGiven_of_sinceStart {α : Type} {get : BuilderCall C → Option α}
    {calls : List (BuilderCall C)} {a : α} (h : lastGiven get (sinceStart calls) = some a) :
    lastGiven get calls = some a := by
  induction calls using List.reverseRecOn with
  | nil => cases h
  | append_singleton calls c ih =>
    rw [sinceStart_concat] at h
    split at h
    next => cases h
    next =>
      rw [lastGiven_concat] at h ⊢
      cases hc : get c with
      | some b =>
        rw [hc] at h
        exact h
      | none =>
        rw [hc] at h
        exact ih h

/-- What such a use of the builder builds, if `on_request` was called since `on_start`. -/
theorem build_eq {calls : List (BuilderCall C)} {f : C.Request Unit}
    (hf : lastGiven onRequest? (sinceStart calls) = some f) :
    (building calls).build = .ok { building calls with onRequest := f } := by
  have hb : (building calls).onRequest = some f := by rw [building_eq, ← hf]
  unfold DaemonBuilder.build
  split
  next g hg =>
    rw [hb] at hg
    obtain rfl := Option.some.inj hg
    rfl
  next hn =>
    rw [hb] at hn
    cases hn

/-- Without `on_request` there is no daemon. -/
theorem build_eq_error {calls : List (BuilderCall C)}
    (hf : lastGiven onRequest? (sinceStart calls) = none) :
    (building calls).build = .error (.missingCallback "on_request") := by
  have hb : (building calls).onRequest = none := by rw [building_eq, ← hf]
  unfold DaemonBuilder.build
  rw [hb]

/-- What a use that gives `f` last asks for. -/
theorem requested_eq {calls : List (BuilderCall C)} {f : C.Request Unit}
    (hf : lastGiven onRequest? calls = some f) :
    requested calls = .ok { building calls with
      onRequest := f, onStop := (lastGiven onStop? calls).getD (C.okStop Unit) } := by
  unfold requested
  rw [hf, building_eq]

/-- The calls of every setter are the same ones in the same order. -/
structure SameBySetter (calls calls' : List (BuilderCall C)) : Prop where
  socket : calls.filterMap socket? = calls'.filterMap socket?
  pidFile : calls.filterMap pidFile? = calls'.filterMap pidFile?
  idleTimeout : calls.filterMap idleTimeout? = calls'.filterMap idleTimeout?
  pollInterval : calls.filterMap pollInterval? = calls'.filterMap pollInterval?
  maxPayloadLen : calls.filterMap maxPayloadLen? = calls'.filterMap maxPayloadLen?
  onStart : calls.filterMap onStart? = calls'.filterMap onStart?
  onRequest : calls.filterMap onRequest? = calls'.filterMap onRequest?
  onStop : calls.filterMap onStop? = calls'.filterMap onStop?

/-- The order between calls of different setters does not matter to what is asked for. -/
theorem SameBySetter.requested_eq {calls calls' : List (BuilderCall C)}
    (h : SameBySetter calls calls') : requested calls = requested calls' := by
  unfold requested lastGiven
  rw [h.socket, h.pidFile, h.idleTimeout, h.pollInterval, h.maxPayloadLen, h.onStart, h.onRequest,
    h.onStop]

/-- The use builds what it asks for: a daemon if and only if `on_request` was called,
and then the one with everything as it was given last. -/
structure Meets (calls : List (BuilderCall C)) : Prop where
  builds_iff : (∃ d, (building calls).build = .ok d) ↔ ∃ f, .onRequest f ∈ calls
  built : ∀ d, (building calls).build = .ok d → requested calls = .ok d

theorem lastGiven_onRequest_ne_none {calls : List (BuilderCall C)} :
    lastGiven onRequest? calls ≠ none ↔ ∃ f, .onRequest f ∈ calls := by
  rw [Ne, lastGiven_eq_none_iff]
  constructor
  · intro h
    push Not at h
    obtain ⟨c, hc, hne⟩ := h
    cases c with
    | onRequest f => exact ⟨f, hc⟩
    | _ => exact absurd rfl hne
  · rintro ⟨f, hf⟩ hall
    cases hall _ hf

/-- Where the callbacks come last, `on_stop` is the closure that was given last. -/
theorem CallbacksLast.onStop {calls : List (BuilderCall C)} (h : CallbacksLast calls)
    (hne : lastGiven onRequest? calls ≠ none) :
    (lastGiven onStop? (sinceStart calls)).getD (C.okStop Unit) =
      (lastGiven onStop? calls).getD (C.okStop Unit) := by
  cases hs : lastGiven onStop? (sinceStart calls) with
  | some g => rw [lastGiven_of_sinceStart hs]
  | none =>
    rcases (h hne).2 with hg | hg | hg
    · exact absurd hs hg
    · rw [hg]
    · rw [hg]
      rfl

theorem CallbacksLast.builds {calls : List (BuilderCall C)} (h : CallbacksLast calls) :
    (building calls).build = requested calls := by
  cases hf : lastGiven onRequest? (sinceStart calls) with
  | none =>
    have hnone : lastGiven onRequest? calls = none := by
      by_contra hne
      exact (h hne).1 hf
    rw [build_eq_error hf, requested, hnone]
  | some f =>
    have hlast := lastGiven_of_sinceStart hf
    have hstop := h.onStop (by rw [hlast]; exact nofun)
    rw [build_eq hf, requested_eq hlast, ← hstop, building_eq]

theorem CallbacksLast.meets {calls : List (BuilderCall C)} (h : CallbacksLast calls) :
    Meets calls := by
  refine ⟨?_, fun d hd => h.builds ▸ hd⟩
  rw [h.builds, ← lastGiven_onRequest_ne_none]
  cases hf : lastGiven onRequest? calls with
  | none =>
    rw [requested, hf]
    exact ⟨fun ⟨d, hd⟩ => (nomatch hd), fun hne => absurd rfl hne⟩
  | some f =>
    rw [requested_eq hf]
    exact ⟨fun _ => nofun, fun _ => ⟨_, rfl⟩⟩

/-- A use of the builder builds what it asks for exactly when its callbacks come last.
So uses that do so and differ only in the order between calls of different setters
build the same. -/
theorem builder_meets_iff (calls : List (BuilderCall C)) :
    (Meets calls ↔ CallbacksLast calls) ∧
      ∀ calls', SameBySetter calls calls' → CallbacksLast calls → CallbacksLast calls' →
        (building calls).build = (building calls').build := by
  refine ⟨⟨fun h hne => ?_, CallbacksLast.meets⟩, fun calls' hsame h h' => ?_⟩
  · obtain ⟨d, hd⟩ := h.builds_iff.mpr (lastGiven_onRequest_ne_none.mp hne)
    have hreq := h.built d hd
    cases hf : lastGiven onRequest? (sinceStart calls) with
    | none =>
      rw [build_eq_error hf] at hd
      cases hd
    | some f =>
      refine ⟨nofun, ?_⟩
      rw [build_eq hf] at hd
      obtain rfl := Except.ok.inj hd
      rw [requested_eq (lastGiven_of_sinceStart hf)] at hreq
      have hstop := congrArg Daemon.onStop (Except.ok.inj hreq)
      dsimp only at hstop
      rw [building_eq] at hstop
      cases hg : lastGiven onStop? (sinceStart calls) with
      | some g => exact .inl nofun
      | none =>
        rw [hg] at hstop
        cases hs : lastGiven onStop? calls with
        | none => exact .inr (.inl rfl)
        | some g =>
          rw [hs] at hstop
          exact .inr (.inr (congrArg some hstop))
  · rw [h.builds, h'.builds, hsame.requested_eq]

/-- `on_start` after `on_request` takes the request callback back: there is no daemon. -/
theorem builder_forgets : ¬ ∀ (C : Callbacks) (calls : List (BuilderCall C)), Meets calls := by
  intro h
  -- every closure is the same one here
  let C : Callbacks := ⟨fun _ => Unit, fun _ => Unit, fun _ => Unit, (), fun _ => ()⟩
  obtain ⟨d, hd⟩ := (h C [.onRequest (), .onStart ()]).builds_iff.mpr ⟨(), List.mem_cons_self⟩
  cases hd

end Sockd
