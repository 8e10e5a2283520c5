import Tddb.LogProtocol

namespace Tddb.Participant

open Tddb.Types Tddb.History Tddb.Context Tddb.Commit Tddb.Operation Tddb.Step Tddb.Frame Tddb.LogProtocol

variable {c : Bool} {s s' : TxContext} {t : TxCmdType} {o : Obs} {l : List Obs}

theorem commit_redelivery_after_end_unanswered :
    (run (start 1 0 true (fun _ => none) ⟨false, true, true, 9, []⟩)
      [.logEntryCommit, .handleTxTmCommit 1, .logEntryCommit, .handleTxTmCommit 1]).out =
    [.assertFail .phase2Commit, .txState .ended, .txFinish, .ack true, .logCommit (some .rmCommit),
      .walAppend [⟨1, some .rmCommit, []⟩], .prepare true, .logCommit (some .rmPrepareCommit),
      .walAppend [⟨1, some .rmPrepareCommit, []⟩]] := by
  decide

/-- `timeout_clean_up` does not stop at `RM_ENDED`, where `abort_tx_2p` sends ACK(commit=false). -/
theorem timeout_after_commit_acks_abort :
    (run (start 1 0 true (fun _ => none) ⟨false, true, true, 9, []⟩)
      [.logEntryCommit, .handleTxTmCommit 1, .logEntryCommit, .timeoutCleanUp]).out =
    [.ack false, .txState .ended, .txFinish, .ack true, .logCommit (some .rmCommit),
      .walAppend [⟨1, some .rmCommit, []⟩], .prepare true, .logCommit (some .rmPrepareCommit),
      .walAppend [⟨1, some .rmPrepareCommit, []⟩]] := by
  decide

end Tddb.Participant
