import Tddb.Types

namespace Tddb.History

open Tddb.Types

/-- The log types of the records one observation passes to `wal_->async_append`. -/
@[simp] def logTypes : Obs → List (Option TxCmdType)
  | .walAppend rs => rs.map (·.logType)
  | _ => []

/-- A record of log type `t` was passed to `wal_->async_append` in history `h`. -/
def Appended (t : TxCmdType) (h : List Obs) : Prop := some t ∈ h.flatMap logTypes

/-- Every observation of a history, latest first, is justified by `r` from the
history before it. Ordering properties of a run are stated this way. -/
def Justified (r : Obs → List Obs → Prop) : List Obs → Prop
  | [] => True
  | o :: h => r o h ∧ Justified r h

instance (t : TxCmdType) (h : List Obs) : Decidable (Appended t h) :=
  inferInstanceAs (Decidable (some t ∈ h.flatMap logTypes))

instance justifiedDecidable (r : Obs → List Obs → Prop) [∀ o h, Decidable (r o h)] :
    ∀ h, Decidable (Justified r h)
  | [] => isTrue trivial
  | o :: h =>
    haveI := justifiedDecidable r h
    inferInstanceAs (Decidable (r o h ∧ Justified r h))

variable {r : Obs → List Obs → Prop} {t : TxCmdType} {o : Obs} {h l : List Obs}

@[simp] theorem justified_nil : Justified r [] := trivial

@[simp] theorem appended_cons : Appended t (o :: h) ↔ some t ∈ logTypes o ∨ Appended t h := by
  simp [Appended]

@[simp] theorem appended_walAppend_cons {rs : List TxLogProto} :
    Appended t (.walAppend rs :: h) ↔ (∃ r ∈ rs, r.logType = some t) ∨ Appended t h := by
  simp [logTypes, eq_comm]

theorem Appended.cons (ha : Appended t h) : Appended t (o :: h) := appended_cons.2 (.inr ha)

end Tddb.History
