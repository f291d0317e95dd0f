import JuanSfu.Signaling.SignalingHandle

/-!
# `signaling/wss_server.cpp`: from the socket to the handlers

`on_message` is what the event loop calls when a frame has arrived: it reads
the text up to its first zero byte, parses it and gives it to the handlers.
-/

namespace JuanSfu

/-- What `on_message` finds at the connection. -/
structure WsFrame where
  error : ℤ := 0
  /-- The decoded buffer. -/
  payload : Bytes

/-- What `on_message` has come to. -/
inductive WsOutcome where
  | closed
  | parseFailed
  | handled (effects : List Effect)

/-- `WssServer::on_message`. -/
def WssServer.onMessage (env : Env) (reader : Str → Option Json) (s : Server) (frame : WsFrame)
    (c : ConnId) (rnd : MessageOracle) : Result (Server × WsOutcome) := do
  if frame.error ≠ 0 then
    return (s, .closed)
  match parseJson reader (cStr frame.payload) with
  | none => return (s, .parseFailed)
  | some json =>
      let (s, effects) ← s.handle env json c rnd
      return (s, .handled effects)

/-- A frame that is not given to the handlers does no harm, and one that is
returns when they do. -/
theorem WssServer.onMessage_returns_iff {env : Env} {reader : Str → Option Json} {s : Server}
    {frame : WsFrame} {c : ConnId} {rnd : MessageOracle} :
    (∃ res, onMessage env reader s frame c rnd = .ok res) ↔
      (frame.error = 0 → ∀ json, parseJson reader (cStr frame.payload) = some json →
        ∃ res, s.handle env json c rnd = .ok res) := by
  unfold onMessage
  by_cases herror : frame.error = 0
  · rw [if_neg (not_not.mpr herror)]
    cases hparse : parseJson reader (cStr frame.payload) with
    | none => simp [pure, Except.pure]
    | some json =>
        cases hhandle : s.handle env json c rnd with
        | error e => simp [herror, hhandle, bind, Except.bind]
        | ok res =>
            obtain ⟨s', effects⟩ := res
            simp [herror, hhandle, bind, Except.bind, pure, Except.pure]
  · simp [herror, pure, Except.pure]

end JuanSfu
