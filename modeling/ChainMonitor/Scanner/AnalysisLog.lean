import ChainMonitor.ProofKit.JsonChars
import ChainMonitor.Scanner.ResultRows
import ChainMonitor.Scanner.SnapshotStore

/-! `FileEventHandler` of `scanner/handlers.py`: one file a day, one line an event. -/

namespace ChainMonitor.Analyze

open ProofKit JsonChars SnapshotStore

/-- `asdict(event)`, with the time as `str` writes it. -/
def asdict (str : ℚ → String) (e : TokenProcessed) : PyValue :=
  .dict [(ofString "chain", .str (ofString e.chain)),
    (ofString "interval", .str (ofString e.interval)),
    (ofString "scanned_at", .str (ofString (str e.scannedAt))),
    (ofString "address", .str (ofString e.address)),
    (ofString "symbol", .str (ofString e.symbol)),
    (ofString "filter_passed", .bool e.filterPassed),
    (ofString "filter_reason", .str (ofString e.filterReason)),
    (ofString "score_total", optInt e.scoreTotal),
    (ofString "score_breakdown", match e.scoreBreakdown with
      | none => .null
      | some b => .dict (b.rows.map fun r => (ofString r.1, .int r.2))),
    (ofString "signal_emitted", .bool e.signalEmitted),
    (ofString "signal_level", match e.signalLevel with
      | none => .null
      | some level => .str (ofString level)),
    (ofString "cooldown_skipped", .bool e.cooldownSkipped)]

/-- The log directory, by the day that a file is named for, and the day whose file is open. -/
structure FileEventHandler where
  files : Dict String (List Char)
  date : Option String

namespace FileEventHandler

def init : FileEventHandler := ⟨Dict.empty, none⟩

/-- `_ensure_file`. A file that is opened to append to is there from then on. -/
def ensureFile (today : String) (h : FileEventHandler) : FileEventHandler :=
  if h.date = some today then h else ⟨h.files.setDefault today [], some today⟩

/-- What the file of a day holds. -/
def content (h : FileEventHandler) (day : String) : List Char := (h.files.get? day).getD []

/-- The text goes to the file that is open. -/
def append (text : List Char) (h : FileEventHandler) : FileEventHandler :=
  match h.date with
  | some day => { h with files := h.files.set day (h.content day ++ text) }
  | none => h

def close (h : FileEventHandler) : FileEventHandler := { h with date := none }

end FileEventHandler

/-- A call of the handler, and the day of UTC on which it comes, or the end of the process that
holds the file open. -/
inductive FileAct
  | event (today : String) (e : TokenProcessed)
  | close

section Runs

variable (str : ℚ → String) (repr : Float → List Char)

/-- `json.dumps(asdict(event), default=str) + "\n"`. -/
def line (e : TokenProcessed) : List Char := write repr (asdict str e) ++ ['\n']

def FileEventHandler.perform (h : FileEventHandler) : FileAct → FileEventHandler
  | .event today e => (h.ensureFile today).append (line str repr e)
  | .close => h.close

def logged (acts : List FileAct) : FileEventHandler :=
  acts.foldl (FileEventHandler.perform str repr) .init

end Runs

/-- The event of a call on a day. -/
def FileAct.eventOn (day : String) : FileAct → Option TokenProcessed
  | .event today e => if today = day then some e else none
  | .close => none

/-- The events of a day, in order. -/
def eventsOn (day : String) (acts : List FileAct) : List TokenProcessed :=
  acts.filterMap (FileAct.eventOn day)

/-! ### Round trip -/

variable {str : ℚ → String} {repr : Float → List Char} {h : FileEventHandler} {day today : String}
  {text : List Char}

theorem noSplitPair_ofString (s : String) : Utf16.NoSplitPair (ofString s) := by
  have hvalid : ∀ c ∈ ofString s, ¬Utf16.IsHigh c.val := by
    intro c hc
    obtain ⟨d, -, rfl⟩ := List.mem_map.mp hc
    have hd := d.valid
    unfold Utf16.IsHigh
    intro hhigh
    rcases hd with hd | hd
    · exact absurd (lt_of_le_of_lt hhigh.1 hd) (by decide)
    · exact absurd (lt_trans hd.1 hhigh.2) (by decide)
  unfold Utf16.NoSplitPair
  generalize ofString s = cs at hvalid
  induction cs with
  | nil => exact List.isChain_nil
  | cons c cs ih =>
    obtain ⟨hc, hcs⟩ := List.forall_mem_cons.mp hvalid
    exact List.isChain_cons.mpr ⟨fun _ _ hpair => hc hpair.1, ih hcs⟩

theorem plainItems_breakdown (rows : List (String × ℤ)) :
    PlainItems (rows.map fun r => (ofString r.1, JsonValue.int r.2)) := by
  induction rows with
  | nil => trivial
  | cons r rows ih => exact ⟨noSplitPair_ofString r.1, trivial, ih⟩

theorem ofString_injective : Function.Injective ofString := fun _ _ => ofString_inj.mp

theorem nodup_breakdown (b : Dict String ℤ) :
    ((b.rows.map fun r => ((ofString r.1, .int r.2) : PyStr × PyValue)).map Prod.fst).Nodup := by
  have hkeys := b.nodup_keys.map ofString_injective
  rw [Table.keys, List.map_map] at hkeys
  rwa [List.map_map]

theorem plain_asdict (e : TokenProcessed) : Plain (asdict str e) := by
  have hkeys : (["chain", "interval", "scanned_at", "address", "symbol", "filter_passed",
      "filter_reason", "score_total", "score_breakdown", "signal_emitted", "signal_level",
      "cooldown_skipped"].map ofString).Nodup :=
    List.Nodup.map ofString_injective (by decide)
  have htotal : Plain (optInt e.scoreTotal) := by cases e.scoreTotal <;> trivial
  refine ⟨?_, hkeys⟩
  simp only [PlainItems, noSplitPair_ofString, htotal, Plain, true_and, and_true]
  constructor
  · cases e.scoreBreakdown with
    | none => trivial
    | some b => exact ⟨plainItems_breakdown b.rows, nodup_breakdown b⟩
  · cases e.signalLevel with
    | none => trivial
    | some level => exact noSplitPair_ofString level

/-! ### What the files hold -/

namespace FileEventHandler

theorem date_ensureFile : (h.ensureFile today).date = some today := by
  unfold ensureFile
  split
  · assumption
  · rfl

/-- To open a file adds nothing to it. -/
theorem content_ensureFile : (h.ensureFile today).content day = h.content day := by
  unfold ensureFile
  split
  · rfl
  · show ((h.files.setDefault today []).get? day).getD [] = h.content day
    rw [Dict.get?_setDefault]
    split
    · rename_i hday
      rw [hday]
      rfl
    · rfl

theorem get?_append {d : String} (hd : h.date = some d) :
    (h.append text).files.get? day =
      if day = d then some (h.content d ++ text) else h.files.get? day := by
  rw [append, hd]
  exact Dict.get?_set

/-- An event adds its line to the file of its day. -/
theorem content_event (e : TokenProcessed) :
    (h.perform str repr (.event today e)).content day =
      h.content day ++ if today = day then line str repr e else [] := by
  rw [perform, content, get?_append date_ensureFile, content_ensureFile]
  by_cases hday : day = today
  · subst hday
    rw [if_pos rfl, if_pos rfl]
    rfl
  · rw [if_neg hday, if_neg (Ne.symm hday), List.append_nil]
    exact content_ensureFile

theorem isSome_event (e : TokenProcessed) :
    ((h.perform str repr (.event today e)).files.get? day).isSome ↔
      today = day ∨ (h.files.get? day).isSome := by
  rw [perform, get?_append date_ensureFile]
  by_cases hday : day = today
  · simp [hday]
  · have hopen : (h.ensureFile today).files.get? day = h.files.get? day := by
      unfold ensureFile
      split
      · rfl
      · show (h.files.setDefault today []).get? day = h.files.get? day
        rw [Dict.get?_setDefault, if_neg hday]
    rw [if_neg hday, hopen]
    simp [Ne.symm hday]

end FileEventHandler

theorem logged_concat (acts : List FileAct) (act : FileAct) :
    logged str repr (acts ++ [act]) = (logged str repr acts).perform str repr act := by
  simp [logged]

theorem eventsOn_concat (acts : List FileAct) (act : FileAct) :
    eventsOn day (acts ++ [act]) = eventsOn day acts ++ (act.eventOn day).toList := by
  rw [eventsOn, List.filterMap_append]
  cases h : act.eventOn day <;> simp [eventsOn, h]

theorem content_logged (acts : List FileAct) :
    (logged str repr acts).content day = (eventsOn day acts).flatMap (line str repr) := by
  induction acts using List.reverseRecOn with
  | nil => rfl
  | append_singleton acts act ih =>
    rw [logged_concat, eventsOn_concat, List.flatMap_append, ← ih]
    cases act with
    | event today e =>
      rw [FileEventHandler.content_event, FileAct.eventOn]
      split <;> simp
    | close => exact (List.append_nil _).symm

theorem isSome_logged (acts : List FileAct) :
    ((logged str repr acts).files.get? day).isSome ↔ eventsOn day acts ≠ [] := by
  induction acts using List.reverseRecOn with
  | nil => simp [logged, FileEventHandler.init, eventsOn]
  | append_singleton acts act ih =>
    rw [logged_concat, eventsOn_concat]
    cases act with
    | event today e =>
      rw [FileEventHandler.isSome_event, ih, FileAct.eventOn]
      split <;> simp_all
    | close =>
      rw [FileAct.eventOn, Option.toList_none, List.append_nil]
      exact ih

/-- After events and restarts in any order, also of the days, the file of each day reads back line
by line as the dicts of the events of that day, in order, and there is no file of another day. -/
theorem analysis_log_reads_back (str : ℚ → String) (repr : Float → List Char)
    (acts : List FileAct) (day : String) :
    readLines ((logged str repr acts).content day) = some ((eventsOn day acts).map (asdict str)) ∧
      (((logged str repr acts).files.get? day).isSome ↔ eventsOn day acts ≠ []) := by
  refine ⟨?_, isSome_logged acts⟩
  have hplain : ∀ v ∈ (eventsOn day acts).map (asdict str), Plain v := by
    intro v hv
    obtain ⟨e, -, rfl⟩ := List.mem_map.mp hv
    exact plain_asdict e
  have hread : readLines (((eventsOn day acts).map (asdict str)).flatMap
      fun v => write repr v ++ ['\n']) = some ((eventsOn day acts).map (asdict str)) :=
    readLines_write hplain
  rw [content_logged, ← hread, List.flatMap_map]
  rfl

end ChainMonitor.Analyze
