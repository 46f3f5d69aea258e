import Sockd.Frame

/-!
# Configuration (`config.rs`, and the fields of `Client`)
-/

namespace Sockd

open Rust

/-- `DaemonConfig`. -/
structure DaemonConfig where
  socketPath : Path := ["tmp", "sockd.sock"]
  pidFile : Option Path := none
  idleTimeout : Duration := .fromSecs 300
  pollInterval : Duration := .fromMillis 250
  maxPayloadLen : Nat := defaultMaxPayloadLen

/-- `AutoStart`, with the defaults of `AutoStart::new`. -/
structure AutoStart where
  program : Path
  args : List String := []
  readyTimeout : Duration := .fromSecs 2
  initialBackoff : Duration := .fromMillis 50
  maxBackoff : Duration := .fromMillis 250

/-- `Client`, with the defaults of `Client::new`. -/
structure Client where
  socketPath : Path
  pidFile : Option Path := none
  autoStart : Option AutoStart := none
  maxPayloadLen : Nat := defaultMaxPayloadLen
  shutdownTimeout : Duration := .fromSecs 2

end Sockd
