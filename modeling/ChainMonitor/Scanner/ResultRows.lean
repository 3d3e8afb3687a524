import ChainMonitor.ProofKit.Sql
import ChainMonitor.Scanner.Markup

/-! The table `scanner_token_results`, and `DatabaseEventHandler` of `scanner/handlers.py`, which
writes it. -/

namespace ChainMonitor.Analyze

open ProofKit

/-- A `TokenProcessed` with the types that its fields are declared with. -/
structure TokenProcessed where
  chain : String
  interval : String
  scannedAt : ℚ
  address : String
  symbol : String
  filterPassed : Bool
  filterReason : String
  scoreTotal : Option ℤ
  scoreBreakdown : Option (Dict String ℤ)
  signalEmitted : Bool
  signalLevel : Option String
  cooldownSkipped : Bool

/-- The event of the orchestrator, whose filter reason is a text. -/
def declared (reasonText : Detector.FilterReason → String) (row : Orchestrator.TokenProcessed) :
    TokenProcessed where
  chain := row.chain
  interval := Orchestrator.intervalText row.interval
  scannedAt := row.scannedAt
  address := row.address
  symbol := row.symbol
  filterPassed := row.filterPassed
  filterReason := reasonText row.filterReason
  scoreTotal := row.scoreTotal
  scoreBreakdown := row.scoreBreakdown.map Orchestrator.breakdownDict
  signalEmitted := row.signalEmitted
  signalLevel := row.signalLevel.map Orchestrator.levelText
  cooldownSkipped := row.cooldownSkipped

/-- The columns of `scanner_token_results` that an analysis reads. -/
structure ResultRow where
  chain : String
  scannedAt : ℚ
  address : String
  symbol : Option String
  filterPassed : Bool
  filterReason : Option String
  scoreTotal : Option ℤ
  scoreBreakdown : Option (Dict String ℤ)
  signalEmitted : Bool
  signalLevel : Option String
  cooldownSkipped : Bool

/-- The texts of a column `VARCHAR(n)`. -/
def IsVarchar (n : ℕ) (text : String) : Prop := text.length ≤ n ∧ '\x00' ∉ text.toList

instance (n : ℕ) (text : String) : Decidable (IsVarchar n text) := by
  unfold IsVarchar
  infer_instance

/-- The columns take the values of the event. -/
structure TokenProcessed.Writable (e : TokenProcessed) : Prop where
  chain : IsVarchar 20 e.chain
  interval : IsVarchar 5 e.interval
  address : IsVarchar 100 e.address
  symbol : IsVarchar 50 e.symbol
  filterReason : IsVarchar 100 e.filterReason
  scoreTotal : ∀ n ∈ e.scoreTotal, Sql.IsInt n
  signalLevel : ∀ level ∈ e.signalLevel, IsVarchar 10 level

instance (e : TokenProcessed) : Decidable e.Writable :=
  decidable_of_iff (IsVarchar 20 e.chain ∧ IsVarchar 5 e.interval ∧ IsVarchar 100 e.address ∧
      IsVarchar 50 e.symbol ∧ IsVarchar 100 e.filterReason ∧
      (∀ n ∈ e.scoreTotal, Sql.IsInt n) ∧ ∀ level ∈ e.signalLevel, IsVarchar 10 level)
    ⟨fun ⟨h1, h2, h3, h4, h5, h6, h7⟩ => ⟨h1, h2, h3, h4, h5, h6, h7⟩,
      fun h => ⟨h.1, h.2, h.3, h.4, h.5, h.6, h.7⟩⟩

/-- The row that the handler inserts. The insert of another event raises. -/
def insert (e : TokenProcessed) : Option ResultRow :=
  if e.Writable then some
    { chain := e.chain
      scannedAt := e.scannedAt
      address := e.address
      symbol := some e.symbol
      filterPassed := e.filterPassed
      filterReason := some e.filterReason
      scoreTotal := e.scoreTotal
      -- `json.dumps(breakdown) if breakdown else None`
      scoreBreakdown := e.scoreBreakdown.filter fun b => b.rows ≠ []
      signalEmitted := e.signalEmitted
      signalLevel := e.signalLevel
      cooldownSkipped := e.cooldownSkipped }
  else none

/-- The row of an event of the orchestrator holds the items of its breakdown. -/
theorem insert_declared {reasonText : Detector.FilterReason → String}
    {row : Orchestrator.TokenProcessed} {b : Detector.Breakdown} {r : ResultRow}
    (h : insert (declared reasonText row) = some r) (hb : row.scoreBreakdown = some b) :
    r.scoreTotal = row.scoreTotal ∧ r.scoreBreakdown = some (Orchestrator.breakdownDict b) := by
  unfold insert at h
  split at h
  · obtain rfl := Option.some_inj.mp h
    simp [declared, hb, Orchestrator.breakdownDict]
  · cases h

/-- The table after these events. -/
def table (events : List TokenProcessed) : List ResultRow := events.filterMap insert

end ChainMonitor.Analyze
