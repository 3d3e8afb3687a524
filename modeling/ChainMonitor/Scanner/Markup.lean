import ChainMonitor.ProofKit.Html
import ChainMonitor.Scanner.Notifier

/-! The HTML of an alert: whatever the token is called, the message has the tags of its template. -/

namespace ChainMonitor.Orchestrator

open ProofKit ProofKit.Html Detector

/-- An `AlphaSignal` with the types that its fields are declared with. -/
structure SignalFields where
  token : TrendingToken
  score : ℤ
  breakdown : Dict String ℤ
  level : String
  chain : String
  interval : String

def iconOf (level : String) : String :=
  ((Dict.ofPairs [("HIGH", "🔴"), ("MEDIUM", "🟡"), ("OBSERVE", "🔵")]).get? level).getD "⚪"

def priceText (fmt : TextFormat) (priceUsd : Float) : String :=
  htmlEscape (if priceUsd < 1 then "$" ++ fmt.fixed 4 priceUsd else "$" ++ fmt.fixed 2 priceUsd)

/-- `_format_alpha` on these fields. -/
def formatFields (fmt : TextFormat) (sig : SignalFields) : String :=
  let t := sig.token
  let bd := fun factor => toString ((sig.breakdown.get? factor).getD 0)
  "\n".intercalate [
    iconOf sig.level ++ " <b>[" ++ toString sig.score ++ "] " ++ fmt.upper sig.chain ++ " " ++
      sig.interval ++ "</b> — <code>" ++ htmlEscape t.symbol ++ "</code>",
    "",
    "<b>📊 评分明细</b>",
    "  聪明钱领先: " ++ bd "smart_money" ++ "/30",
    "  排名加速:  " ++ bd "rank_momentum" ++ "/20",
    "  成交量质量: " ++ bd "volume_quality" ++ "/15",
    "  结构健康度: " ++ bd "structure" ++ "/15",
    "  多时间帧:  " ++ bd "timeframe" ++ "/10",
    "  风险折价:  " ++ bd "risk_penalty",
    "",
    "  地址: <code>" ++ htmlEscape (shortAddress t.address) ++ "</code>",
    "  价格: " ++ priceText fmt t.priceUsd,
    "  成交额(" ++ sig.interval ++ "): " ++ usdOrNa fmt t.volume1m,
    "  市值: " ++ usdOrNa fmt t.marketCap]

def levelText : Level → String
  | .high => "HIGH"
  | .medium => "MEDIUM"
  | .observe => "OBSERVE"

def breakdownDict (b : Breakdown) : Dict String ℤ where
  rows := [("smart_money", b.smartMoney), ("rank_momentum", b.rankMomentum),
    ("volume_quality", b.volumeQuality), ("volume_acceleration", b.volumeAcceleration),
    ("structure", b.structural), ("timeframe", b.timeframe), ("risk_penalty", b.riskPenalty)]
  unique := by
    show List.Nodup ["smart_money", "rank_momentum", "volume_quality", "volume_acceleration",
      "structure", "timeframe", "risk_penalty"]
    decide

/-- The fields of a signal of the detector. -/
def fields (sig : AlphaSignal) : SignalFields where
  token := sig.token.token
  score := sig.token.score
  breakdown := breakdownDict sig.token.breakdown
  level := levelText sig.level
  chain := sig.chain
  interval := intervalText sig.interval

theorem iconOf_levelText (level : Level) : iconOf (levelText level) = levelIcon level := by
  cases level <;> decide

theorem formatAlpha_eq (fmt : TextFormat) (sig : AlphaSignal) :
    formatAlpha fmt sig = formatFields fmt (fields sig) := by
  simp only [formatFields, fields, iconOf_levelText, breakdownDict, Dict.get?]
  rfl

variable {fmt : TextFormat} {sig : SignalFields}

/-- What stands before the first tag. -/
def leadText (sig : SignalFields) : List Char := (iconOf sig.level).toList ++ [' ']

/-- What stands between the second heading and the address: the scores, one a line. -/
def scoresText (sig : SignalFields) : String :=
  let bd := fun factor => toString ((sig.breakdown.get? factor).getD 0)
  "\n".intercalate [
    "",
    "  聪明钱领先: " ++ bd "smart_money" ++ "/30",
    "  排名加速:  " ++ bd "rank_momentum" ++ "/20",
    "  成交量质量: " ++ bd "volume_quality" ++ "/15",
    "  结构健康度: " ++ bd "structure" ++ "/15",
    "  多时间帧:  " ++ bd "timeframe" ++ "/10",
    "  风险折价:  " ++ bd "risk_penalty",
    "",
    "  地址: "]

/-- What stands behind the address. -/
def amountsText (fmt : TextFormat) (sig : SignalFields) : String :=
  "\n".intercalate [
    "",
    "  价格: " ++ priceText fmt sig.token.priceUsd,
    "  成交额(" ++ sig.interval ++ "): " ++ usdOrNa fmt sig.token.volume1m,
    "  市值: " ++ usdOrNa fmt sig.token.marketCap]

/-- The tags of a message, each with the text that follows it. -/
def template (fmt : TextFormat) (sig : SignalFields) : List Tag :=
  [⟨"b".toList, ("[" ++ toString sig.score ++ "] " ++ fmt.upper sig.chain ++ " " ++
      sig.interval).toList⟩,
    ⟨"/b".toList, " — ".toList⟩,
    ⟨"code".toList, escape sig.token.symbol.toList⟩,
    ⟨"/code".toList, "\n\n".toList⟩,
    ⟨"b".toList, "📊 评分明细".toList⟩,
    ⟨"/b".toList, (scoresText sig).toList⟩,
    ⟨"code".toList, escape (shortAddress sig.token.address).toList⟩,
    ⟨"/code".toList, (amountsText fmt sig).toList⟩]

theorem toList_htmlEscape (text : String) : (htmlEscape text).toList = escape text.toList := by
  rw [htmlEscape, ← replaceChar_thrice]
  rw [show (">" : String) = String.singleton '>' from rfl, Replace.toList_replace,
    show ("<" : String) = String.singleton '<' from rfl, Replace.toList_replace,
    show ("&" : String) = String.singleton '&' from rfl, Replace.toList_replace]

theorem toList_formatFields (fmt : TextFormat) (sig : SignalFields) :
    (formatFields fmt sig).toList = leadText sig ++ render (template fmt sig) := by
  have hopen : " <b>[".toList = ' ' :: '<' :: ("b".toList ++ '>' :: "[".toList) := by decide
  have hcode : "</b> — <code>".toList =
      '<' :: ("/b".toList ++ '>' :: (" — ".toList ++ '<' :: ("code".toList ++ ['>']))) := by decide
  have hclose : "</code>".toList = '<' :: ("/code".toList ++ ['>']) := by decide
  have htitle : "<b>📊 评分明细</b>".toList =
      '<' :: ("b".toList ++ '>' :: ("📊 评分明细".toList ++ '<' :: ("/b".toList ++ ['>']))) := by
    decide
  have haddress : "  地址: <code>".toList = "  地址: ".toList ++ '<' :: ("code".toList ++ ['>']) := by
    decide
  have hblank : "\n\n".toList = "\n".toList ++ "\n".toList := by decide
  simp only [formatFields, leadText, template, render, Tag.segment, scoresText, amountsText,
    String.toList_append, String.toList_intercalate, List.map_cons, List.map_nil,
    List.intercalate_cons_cons, List.intercalate_singleton, toList_htmlEscape, hopen, hcode,
    hclose, htitle, haddress, hblank, List.flatMap_cons, List.flatMap_nil, List.append_assoc,
    List.cons_append, List.nil_append, String.toList_empty, List.append_nil]

/-! ### The texts between the tags -/

theorem bare_toString (n : ℤ) : Bare (toString n).toList := by
  intro c hc hspecial
  have hneither : ∀ c ∈ special, ¬(c.isDigit = true ∨ c = '-') := by simp [special]
  exact hneither c hspecial (digit_or_minus_of_mem_repr hc)

theorem plain_htmlEscape (text : String) : Plain (htmlEscape text).toList :=
  toList_htmlEscape text ▸ plain_escape text.toList

theorem plain_usdOrNa (fmt : TextFormat) (val : Option Float) :
    Plain (usdOrNa fmt val).toList := by
  unfold usdOrNa
  have hna : Plain "N/A".toList := Bare.plain (by decide)
  split
  · exact hna
  · split
    · exact plain_htmlEscape _
    · exact hna

theorem iconOf_mem (level : String) : iconOf level ∈ ["🔴", "🟡", "🔵", "⚪"] := by
  unfold iconOf
  cases h : (Dict.ofPairs [("HIGH", "🔴"), ("MEDIUM", "🟡"), ("OBSERVE", "🔵")]).get? level with
  | none => decide
  | some icon =>
    have hicons : ∀ r ∈ (Dict.ofPairs [("HIGH", "🔴"), ("MEDIUM", "🟡"), ("OBSERVE", "🔵")]).rows,
        r.2 ∈ ["🔴", "🟡", "🔵", "⚪"] := by decide
    exact hicons _ (Dict.get?_eq_some.mp h)

theorem plain_leadText (sig : SignalFields) : Plain (leadText sig) := by
  have hicons : ∀ icon ∈ ["🔴", "🟡", "🔵", "⚪"], Bare (icon.toList ++ [' ']) := by decide
  exact (hicons _ (iconOf_mem sig.level)).plain

theorem plain_scoresText (sig : SignalFields) : Plain (scoresText sig).toList := by
  have hscore : ∀ before factor after, Bare before.toList → Bare after.toList →
      Plain (before ++ toString ((sig.breakdown.get? factor).getD 0) ++ after).toList := by
    intro before factor after hbefore hafter
    rw [String.toList_append, String.toList_append]
    exact ((hbefore.append (bare_toString _)).append hafter).plain
  rw [scoresText, String.toList_intercalate]
  refine plain_intercalate (Bare.plain (by decide)) ?_
  simp only [List.map_cons, List.map_nil, List.forall_mem_cons]
  refine ⟨Bare.plain (by decide), hscore _ _ _ (by decide) (by decide),
    hscore _ _ _ (by decide) (by decide), hscore _ _ _ (by decide) (by decide),
    hscore _ _ _ (by decide) (by decide), hscore _ _ _ (by decide) (by decide), ?_,
    Bare.plain (by decide), Bare.plain (by decide), nofun⟩
  simpa using hscore "  风险折价:  " "risk_penalty" "" (by decide) (by decide)

theorem plain_amountsText (hinterval : Bare sig.interval.toList) :
    Plain (amountsText fmt sig).toList := by
  have hline : ∀ before after : String, Bare before.toList → Plain after.toList →
      Plain (before ++ after).toList := by
    intro before after hbefore hafter
    rw [String.toList_append]
    exact hbefore.plain.append hafter
  rw [amountsText, String.toList_intercalate]
  refine plain_intercalate (Bare.plain (by decide)) ?_
  simp only [List.map_cons, List.map_nil, List.forall_mem_cons]
  refine ⟨Bare.plain (by decide), hline _ _ (by decide) (plain_htmlEscape _), ?_,
    hline _ _ (by decide) (plain_usdOrNa fmt _), nofun⟩
  refine hline _ _ ?_ (plain_usdOrNa fmt _)
  rw [String.toList_append, String.toList_append]
  exact (Bare.append (by decide) hinterval).append (by decide)

theorem template_plain (hchain : Bare (fmt.upper sig.chain).toList)
    (hinterval : Bare sig.interval.toList) :
    ∀ t ∈ template fmt sig, Bare t.name ∧ Plain t.content := by
  have hheadline : Plain ("[" ++ toString sig.score ++ "] " ++ fmt.upper sig.chain ++ " " ++
      sig.interval).toList := by
    simp only [String.toList_append]
    refine Bare.plain ((((Bare.append ?_ (by decide)).append hchain).append (by decide)).append
      hinterval)
    exact Bare.append (by decide) (bare_toString _)
  simp only [template, List.forall_mem_cons]
  exact ⟨⟨by decide, hheadline⟩, ⟨by decide, Bare.plain (by decide)⟩, ⟨by decide, plain_escape _⟩,
    ⟨by decide, Bare.plain (by decide)⟩, ⟨by decide, Bare.plain (by decide)⟩,
    ⟨by decide, plain_scoresText sig⟩, ⟨by decide, plain_escape _⟩,
    ⟨by decide, plain_amountsText hinterval⟩, nofun⟩

/-- No name of a token and no address adds a tag to its message or takes one from it, and the name
can be read back. `fmt.upper` makes none of the three characters. -/
theorem alpha_markup (fmt : TextFormat) (sig : SignalFields)
    (hupper : ∀ text : String, Bare text.toList → Bare (fmt.upper text).toList)
    (hchain : Bare sig.chain.toList) (hinterval : Bare sig.interval.toList) :
    (tags (formatFields fmt sig).toList).map Tag.name =
      ["b", "/b", "code", "/code", "b", "/b", "code", "/code"].map String.toList ∧
    EntitiesOnly (formatFields fmt sig).toList ∧
    (firstElement "code".toList (tags (formatFields fmt sig).toList)).map unescape =
      some sig.token.symbol.toList ∧
    Function.Injective htmlEscape := by
  have hlead := plain_leadText sig
  have hplain : ∀ t ∈ template fmt sig, Bare t.name ∧ Plain t.content :=
    template_plain (hupper sig.chain hchain) hinterval
  have htags : tags (formatFields fmt sig).toList = template fmt sig := by
    rw [toList_formatFields]
    exact tags_render hlead.lt hplain
  refine ⟨?_, ?_, ?_, ?_⟩
  · rw [htags]
    rfl
  · rw [toList_formatFields]
    exact entitiesOnly_render hlead.entities hplain
  · have hcode : firstElement "code".toList (template fmt sig) =
        some (escape sig.token.symbol.toList) := by
      simp [template, firstElement]
    rw [htags, hcode, Option.map_some, unescape_escape]
  · intro s t hst
    have hescape := congrArg (fun text => unescape text.toList) hst
    simp only [toList_htmlEscape, unescape_escape] at hescape
    exact String.toList_inj.mp hescape

theorem mem_special_of_toUpper {c : Char} (h : c.toUpper ∈ special) : c ∈ special := by
  unfold Char.toUpper at h
  split at h
  · -- a small letter becomes one of A to Z
    rename_i hsmall
    exfalso
    have hletter : 97 ≤ c.toNat ∧ c.toNat ≤ 122 := hsmall
    simp only [special, List.mem_cons, List.not_mem_nil, or_false, Char.ext_iff] at h
    rcases h with h | h | h
    all_goals
      have hcode := congrArg UInt32.toNat h
      simp [UInt32.toNat_add] at hcode
      omega
  · exact h

theorem bare_upper_sample (text : String) (h : Bare text.toList) :
    Bare (sampleFormat.upper text).toList := by
  intro c hc hspecial
  simp only [sampleFormat, String.toList_ofList, List.mem_map] at hc
  obtain ⟨d, hd, rfl⟩ := hc
  exact h d hd (mem_special_of_toUpper hspecial)

/-- A token whose name closes the element that it stands in. -/
def namedAsMarkup : SignalFields where
  token := { sampleToken "A" 200000 10 1 with symbol := "</code><b>&amp;" }
  score := 65
  breakdown := Dict.empty
  level := "HIGH"
  chain := "sol"
  interval := "1m"

theorem alpha_markup_named :
    (firstElement "code".toList (tags (formatFields sampleFormat namedAsMarkup).toList)).map
      unescape = some "</code><b>&amp;".toList :=
  (alpha_markup sampleFormat namedAsMarkup bare_upper_sample (by decide) (by decide)).2.2.1

end ChainMonitor.Orchestrator
