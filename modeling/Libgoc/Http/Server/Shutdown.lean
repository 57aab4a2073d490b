import Libgoc.Http.Server.Calls

namespace Libgoc.Http.Server

open Libgoc.Semantics Function

/-! # Shutdown -/

/-- In every orderly run the shutdown channel is closed only when no fiber of the
server runs, and it is closed when the last one has finished; while
`goc_http_server_close` waits every accept loop is told to stop, and when it returns
none uses the server. -/
theorem shutdown_after_fibers (state : State) (reachable : system.ReachableWith Orderly state) :
    (state.shutdown ≠ .opened → ∀ id, ¬ (state.fibers id).Running) ∧
      (state.close = .waiting → (∀ id, ¬ (state.fibers id).Running) →
        state.shutdown ≠ .opened) ∧
      (state.close = .waiting → ∀ id ≤ state.workers, (state.fibers id).Running →
        (state.fibers id).stopping ∨
          (id < state.workers ∧ (state.fibers id).phase.unchecked = true ∧
            state.closing = true)) ∧
      (state.close = .finishing ∨ state.close = .returned →
        ∀ id, ¬ (state.fibers id).Running) := by
  have inv : Inv state := by
    apply reachable.invariant
    · intro start initial
      obtain ⟨workers, rfl⟩ := initial
      exact inv_initial workers
    · exact fun before label after inv orderly stepped => inv.stepped orderly stepped
  have calls := inv.calls
  refine ⟨fun shut id => (inv.each id).shut shut, ?_, ?_, ?_⟩
  · intro waiting still unclosed
    have listening := calls.waits waiting
    have ordered := calls.ordered (by simp [waiting])
    have returned : state.listen = .returned := by
      cases listen : state.listen with
      | returned => rfl
      | idle =>
        have none := calls.unlistened (.inl listen)
        have closed := calls.unopened (by simp [listen]) (by simp [listen])
        simp [none, closed] at listening
      | _ => simp [listen] at ordered
    obtain ⟨id, bound⟩ := inv.needed (.inl ⟨returned, listening, unclosed⟩)
    exact still id bound.1
  · intro waiting id inside running
    obtain stopping | ⟨slot, unchecked⟩ := (inv.each id).waited waiting inside running
    · exact .inl stopping
    · exact .inr ⟨slot, unchecked, (calls.ordered (by simp [waiting])).2⟩
  · exact fun finished id => (inv.each id).shut (calls.finished finished)

/-- Two listeners are started and ready. -/
def listenRun : List Label :=
  [.listen .reuseport, .listenNext, .listenNext, .listenNext,
    .fiber 0 .begin, .fiber 0 .make, .channel 0 (.listened true), .fiber 0 .install,
    .fiber 1 .begin, .fiber 1 .make, .channel 1 (.listened true), .fiber 1 .install,
    .listenNext, .listenNext, .listenNext]

def closeRun : List Label :=
  [.close, .closeNext, .closeNext, .closeNext, .closeNext]

/-- Both listeners count themselves, one accepts a connection, and the server is
closed. -/
def servedRun : List Label :=
  listenRun ++
  [.fiber 0 .check, .fiber 0 .count, .fiber 1 .check, .fiber 1 .count, .channel 1 .arrives,
    .fiber 1 .take, .fiber 1 .count, .fiber 1 (.dispatch true)] ++
  closeRun ++
  [.channel 0 .closes, .fiber 0 .takeFails, .fiber 0 .takeFails, .fiber 0 .leave,
    .channel 1 .closes, .fiber 1 .takeFails, .fiber 1 .takeFails, .fiber 1 .leave,
    .fiber 3 .leave, .fiber 3 .closeShutdown, .shutdownCloses, .closeNext, .closeNext]

theorem servedRun_returns : ∃ state,
    system.runWith Orderly { workers := 2 } servedRun = some state ∧ state.close = .returned ∧
      state.conns = 1 ∧ ∀ id, ¬ (state.fibers id).Running := by
  refine ⟨_, rfl, rfl, rfl, ?_⟩
  exact (shutdown_after_fibers _ (.of_run system Orderly servedRun ⟨2, rfl⟩ rfl)).2.2.2 (.inr rfl)

/-- The server is closed after both listeners are ready and before they count
themselves. -/
def hastyRun : List Label :=
  listenRun ++ closeRun ++ [.fiber 0 .check, .fiber 1 .check]

theorem hasty_close_never_returns : ∃ state, system.run { workers := 2 } hastyRun = some state ∧
    system.Reachable state ∧ state.close = .waiting ∧
      (∀ id < state.size, (state.fibers id).phase = .absent ∨ (state.fibers id).phase = .done) ∧
      state.active = 0 ∧ state.shutdown = .opened := by
  refine ⟨_, rfl, .of_run system hastyRun ⟨2, rfl⟩ rfl, rfl, ?_, rfl, rfl⟩
  decide

end Libgoc.Http.Server
