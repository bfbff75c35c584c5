import RuleTrader.Proofs.Rule.Sites
import RuleTrader.Rule.RuleSet

/-!
# Containment of faults

Reading a rule set is contained when it refuses only text that cannot be read, and when the rules of a
list are those of its entries, one after the other. This holds unless the payload has an integer that
cannot be looked at: one in JSON text with too many digits, or one that a rule has in a place which the
reading of the rule comes to.
-/

namespace RuleTrader

/-! ## One rule -/

namespace Rule

/-- A site where the reading of a condition stops. -/
def Site.Blocked : Site → Prop
  | .leaf v => LeafOverflows v
  | .tooDeep => True

/-- A rule that cannot be looked at: its condition comes to an overflowing leaf before it comes to any
other site that stops it, or all of the rule is in order but for a priority that overflows. -/
inductive Overflows : Value → Prop where
  | condition {fields : List (String × Value)} {earlier later : List Site} {leaf : Value}
      (sites : groupSites nestingAllowance ((Value.record fields).field "conditions") =
        earlier ++ .leaf leaf :: later)
      (clear : ∀ site ∈ earlier, ¬site.Blocked) (overflows : LeafOverflows leaf) :
      Overflows (.record fields)
  | priority {fields : List (String × Value)} {condition : Condition} {decision : Decision}
      (condition_eq :
        readGroup nestingAllowance ((Value.record fields).field "conditions") = .ok (some condition))
      (decision_eq : readDecision ((Value.record fields).field "event") = some decision)
      (overflows : NumberOverflows ((Value.record fields).field "priority")) :
      Overflows (.record fields)

theorem Site.fault?_eq_none {site : Site} : site.fault? = none ↔ ¬site.Blocked := by
  cases site with
  | leaf v =>
      rw [Site.Blocked, ← readLeaf_fails_iff]
      simp [Site.fault?]
  | tooDeep => simp [Site.fault?, Site.Blocked]

theorem readGroup_number_iff {allowance : Nat} {v : Value} :
    (∃ fault, readGroup allowance v = .error (.number fault)) ↔
      ∃ earlier leaf later, groupSites allowance v = earlier ++ .leaf leaf :: later ∧
        (∀ site ∈ earlier, ¬site.Blocked) ∧ LeafOverflows leaf := by
  simp only [← fault?_eq_some, readGroup_fault, List.findSome?_eq_some_iff, Site.fault?_eq_none]
  constructor
  · rintro ⟨fault, earlier, site, later, hsites, hfault, hclear⟩
    cases site with
    | leaf leaf =>
        refine ⟨earlier, leaf, later, hsites, hclear, (readLeaf_fails_iff leaf).1 ?_⟩
        rcases Option.map_eq_some_iff.1 hfault with ⟨number, hnumber, -⟩
        simp [hnumber]
    | tooDeep => cases hfault
  · rintro ⟨earlier, leaf, later, hsites, hclear, hleaf⟩
    rcases Option.isSome_iff_exists.1 ((readLeaf_fails_iff leaf).2 hleaf) with ⟨fault, hfault⟩
    exact ⟨fault, earlier, .leaf leaf, later, hsites, by simp [Site.fault?, hfault], hclear⟩

theorem readPriority_fails_iff (v : Value) :
    (fault? (readPriority v)).isSome = true ↔ NumberOverflows v := by
  rw [← finiteNumber?_fails_iff]
  simp [readPriority]

/-- A rule overflows where the reading of its condition stops at a number, or in the priority of what
is otherwise in order. -/
theorem overflows_record_iff {fields : List (String × Value)} :
    Overflows (.record fields) ↔
      (∃ fault, readGroup nestingAllowance ((Value.record fields).field "conditions") =
        .error (.number fault)) ∨
      ∃ condition decision,
        readGroup nestingAllowance ((Value.record fields).field "conditions") =
          .ok (some condition) ∧
        readDecision ((Value.record fields).field "event") = some decision ∧
        NumberOverflows ((Value.record fields).field "priority") := by
  rw [readGroup_number_iff]
  constructor
  · rintro (⟨hsites, hclear, hleaf⟩ | ⟨hcondition, hdecision, hpriority⟩)
    · exact Or.inl ⟨_, _, _, hsites, hclear, hleaf⟩
    · exact Or.inr ⟨_, _, hcondition, hdecision, hpriority⟩
  · rintro (⟨earlier, leaf, later, hsites, hclear, hleaf⟩ |
      ⟨condition, decision, hcondition, hdecision, hpriority⟩)
    · exact .condition hsites hclear hleaf
    · exact .priority hcondition hdecision hpriority

/-- Reading a rule stops exactly when the rule overflows. -/
theorem read_fails_iff (v : Value) : (fault? (read v)).isSome = true ↔ Overflows v := by
  cases v with
  | record fields =>
      rw [overflows_record_iff, ← readPriority_fails_iff]
      unfold read
      cases readGroup nestingAllowance ((Value.record fields).field "conditions") with
      | error fault => cases fault <;> simp
      | ok condition? =>
          -- The condition was read, so only the priority can stop the reading.
          dsimp only
          unfold readWith
          cases condition? with
          | none => simp
          | some condition =>
              cases readDecision ((Value.record fields).field "event") with
              | none => simp
              | some decision => simp
  | _ =>
      simp only [read, fault?_ok, Option.isSome_none]
      refine iff_of_false (by simp) ?_
      rintro ⟨⟩

end Rule

/-! ## Several rules -/

namespace RuleSet

/-- The rules that one reading gives. -/
theorem rules_cons (e : RuleEntry) (es : List RuleEntry) :
    (readEntries (e :: es)).rules = (do
      let reading ← (readEntry e).mapError .number
      return reading.rule?.toList ++ (← (readEntries es).rules)) := by
  rw [readEntries]
  cases readEntry e with
  | error fault => rfl
  | ok reading =>
      cases hfault : (readEntries es).fault? with
      | some fault =>
          simp [RuleSetReading.rules, hfault, bind, Except.bind]
      | none =>
          cases hrule : reading.rule? <;>
            simp [RuleSetReading.rules, hfault, hrule, bind, Except.bind, pure,
              Except.pure]

theorem rules_single (e : RuleEntry) :
    (readEntries [e]).rules = (fun reading => reading.rule?.toList) <$>
      (readEntry e).mapError RuleSetFault.number := by
  rw [rules_cons]
  cases readEntry e <;> simp [readEntries, RuleSetReading.rules, bind, Except.bind,
    pure, Except.pure, Functor.map, Except.map]

theorem read_entries {v : Value} {entries : List RuleEntry} (h : entriesOfValue v = .ok entries) :
    read (.value v) = (readEntries entries).rules := by
  simp [read, readAll, entriesOf, h]

/-- The rules of a list are those of its entries, read one after the other up to the first fault. -/
theorem read_list (xs : List Value) :
    read (.value (.list xs)) =
      List.flatten <$> xs.mapM fun x => read (.value (.list [x])) := by
  have hread (ys : List Value) :
      read (.value (.list ys)) = (readEntries (ys.map .raw)).rules := read_entries rfl
  induction xs with
  | nil => rfl
  | cons x xs ih =>
      rw [hread] at ih
      rw [hread, List.map_cons, rules_cons, ih, List.mapM_cons, hread [x], List.map_cons, List.map_nil,
        rules_single]
      -- Both sides stop at the first entry that cannot be looked at.
      cases readEntry (.raw x) with
      | error fault => rfl
      | ok reading =>
          cases hrest : xs.mapM fun x => read (.value (.list [x])) with
          | error fault => simp [Functor.map, Except.map, bind, Except.bind]
          | ok parts =>
              simp [Functor.map, Except.map, bind, Except.bind, pure, Except.pure]

theorem readEntries_fault (entries : List RuleEntry) :
    fault? (readEntries entries).rules =
      (entries.findSome? fun e => fault? (readEntry e)).map .number := by
  induction entries with
  | nil => rfl
  | cons e es ih =>
      rw [rules_cons, fault?_bind, List.findSome?_cons]
      cases readEntry e with
      | error fault => rfl
      | ok reading => simpa using ih

/-! ## Payloads -/

/-- The JSON text that a payload holds. -/
inductive JsonText : Value → String → Prop where
  | text {s : String} (nonempty : s ≠ "") : JsonText (.text s) s
  | bytes {bs : List UInt8} {cs : List Char} (decoded : Text.decodeUtf8 bs = .ok cs) :
      JsonText (.bytes bs) (String.ofList cs)

/-- A payload that is refused for its text: bytes that are no UTF-8, or text that is no JSON text or is
nested too deeply. -/
inductive Unreadable : Value → RuleSetFault → Prop where
  | notUtf8 {bs : List UInt8} {fault : Text.Utf8Fault} (h : Text.decodeUtf8 bs = .error fault) :
      Unreadable (.bytes bs) (.notUtf8 fault)
  | notJson {v : Value} {s : String} {fault : JsonFault} (text : JsonText v s)
      (h : Json.read s = .error fault) (notNumber : ∀ number, fault ≠ .number number) :
      Unreadable v (.notJson fault)

/-- What reading a payload should be: it is refused only for its text, and a list gives the rules of
its entries in their order. -/
structure Contained (v : Value) : Prop where
  faults : ∀ fault, read (.value v) = .error fault → Unreadable v fault
  entries : ∀ xs, v = .list xs → ∃ parts,
    (xs.mapM fun x => read (.value (.list [x]))) = .ok parts ∧ read (.value v) = .ok parts.flatten

/-- A payload with an integer that cannot be looked at, in its text or in one of its rules. -/
def Escapes (v : Value) : Prop :=
  (∃ s number, JsonText v s ∧ Json.read s = .error (.number number)) ∨
    ∃ entries x, entriesOfValue v = .ok entries ∧ RuleEntry.raw x ∈ entries ∧ Rule.Overflows x

theorem readText_error {s : String} {fault : RuleSetFault} (h : readText s = .error fault) :
    (∃ number, Json.read s = .error (.number number) ∧ fault = .number number) ∨
      ∃ json, Json.read s = .error json ∧ (∀ number, json ≠ .number number) ∧
        fault = .notJson json := by
  unfold readText at h
  split at h
  · cases h
  · next number hnumber => exact Or.inl ⟨number, hnumber, (Except.error.inj h).symm⟩
  · next json hnumber hjson =>
      exact Or.inr ⟨json, hjson, hnumber, (Except.error.inj h).symm⟩

theorem entriesOfText_error {v : Value} {s : String} {fault : RuleSetFault} (text : JsonText v s)
    (h : entriesOfText s = .error fault) :
    Unreadable v fault ∨ ∃ number, Json.read s = .error (.number number) ∧ fault = .number number := by
  have htext : readText s = .error fault := by
    unfold entriesOfText at h
    cases hread : readText s with
    | error fault' =>
        rw [hread] at h
        exact congrArg Except.error (Except.error.inj h)
    | ok v =>
        rw [hread] at h
        cases h
  rcases readText_error htext with hnumber | ⟨json, hjson, hnot, rfl⟩
  · exact Or.inr hnumber
  · exact Or.inl (.notJson text hjson hnot)

/-- A payload that has no entries is refused for its text, or for an integer in it. -/
theorem entriesOfValue_error {v : Value} {fault : RuleSetFault}
    (h : entriesOfValue v = .error fault) : Unreadable v fault ∨ Escapes v := by
  cases v with
  | text s =>
      by_cases hempty : s.isEmpty
      · simp [entriesOfValue, hempty] at h
      · have hnonempty : s ≠ "" := by
          rintro rfl
          exact hempty rfl
        have htext : entriesOfText s = .error fault := by simpa [entriesOfValue, hempty] using h
        rcases entriesOfText_error (.text hnonempty) htext with hunreadable | ⟨number, hnumber, -⟩
        · exact Or.inl hunreadable
        · exact Or.inr (Or.inl ⟨s, number, .text hnonempty, hnumber⟩)
  | bytes bs =>
      cases hdecoded : Text.decodeUtf8 bs with
      | error utf8 =>
          have hfault : RuleSetFault.notUtf8 utf8 = fault := by
            simpa [entriesOfValue, hdecoded] using h
          exact Or.inl (hfault ▸ .notUtf8 hdecoded)
      | ok cs =>
          have htext : entriesOfText (String.ofList cs) = .error fault := by
            simpa [entriesOfValue, hdecoded] using h
          rcases entriesOfText_error (.bytes hdecoded) htext with hunreadable | ⟨number, hnumber, -⟩
          · exact Or.inl hunreadable
          · exact Or.inr (Or.inl ⟨_, number, .bytes hdecoded, hnumber⟩)
  | _ => cases h

/-- The reading of entries stops exactly when one of them overflows. -/
theorem readEntries_fails_iff (entries : List RuleEntry) :
    (fault? (readEntries entries).rules).isSome = true ↔
      ∃ x, RuleEntry.raw x ∈ entries ∧ Rule.Overflows x := by
  rw [readEntries_fault, Option.isSome_map, List.findSome?_isSome_iff]
  constructor
  · rintro ⟨e, he, hfault⟩
    cases e with
    | raw x => exact ⟨x, he, (Rule.read_fails_iff x).1 hfault⟩
    | ready rule => cases hfault
  · rintro ⟨x, hx, hoverflows⟩
    exact ⟨.raw x, hx, (Rule.read_fails_iff x).2 hoverflows⟩

theorem readEntries_number {entries : List RuleEntry} {fault : RuleSetFault}
    (h : (readEntries entries).rules = .error fault) : ∃ number, fault = .number number := by
  have hfault := readEntries_fault entries
  rw [h, fault?_error] at hfault
  rcases Option.map_eq_some_iff.1 hfault.symm with ⟨number, -, hnumber⟩
  exact ⟨number, hnumber.symm⟩

/-- A payload that escapes is refused for a number. -/
theorem Escapes.read_number {v : Value} (h : Escapes v) :
    ∃ number, read (.value v) = .error (.number number) := by
  rcases h with ⟨s, number, text, hnumber⟩ | ⟨entries, x, hentries, hx, hoverflows⟩
  · refine ⟨number, ?_⟩
    have htext : entriesOfText s = .error (.number number) := by
      simp [entriesOfText, readText, hnumber, Functor.map, Except.map]
    cases text with
    | text hnonempty =>
        simp [read, readAll, entriesOf, entriesOfValue, hnonempty, htext, RuleSetReading.rules]
    | bytes hdecoded =>
        simp [read, readAll, entriesOf, entriesOfValue, hdecoded, htext, RuleSetReading.rules]
  · -- Whichever entry stops the reading first, its fault is a number.
    have hfails := (readEntries_fails_iff entries).2 ⟨x, hx, hoverflows⟩
    rcases Option.isSome_iff_exists.1 hfails with ⟨fault, hfault⟩
    have herror := fault?_eq_some.1 hfault
    rcases readEntries_number herror with ⟨number, rfl⟩
    exact ⟨number, (read_entries hentries).trans herror⟩

/-- A payload that does not escape is refused only for its text. -/
theorem unreadable_of_error {v : Value} (hescapes : ¬Escapes v) {fault : RuleSetFault}
    (h : read (.value v) = .error fault) : Unreadable v fault := by
  cases hentries : entriesOfValue v with
  | error fault' =>
      have hsame : fault' = fault := by
        simpa [read, readAll, entriesOf, hentries, RuleSetReading.rules] using h
      exact hsame ▸ (entriesOfValue_error hentries).resolve_right hescapes
  | ok entries =>
      -- With entries at hand, only a rule that overflows can stop the reading.
      rw [read_entries hentries] at h
      rcases (readEntries_fails_iff entries).1 (by simp [h]) with ⟨x, hx, hoverflows⟩
      exact absurd (Or.inr ⟨entries, x, hentries, hx, hoverflows⟩) hescapes

/-- The reading of a payload is contained unless it has an integer that cannot be looked at. -/
theorem contained_iff (v : Value) : Contained v ↔ ¬Escapes v := by
  constructor
  · intro hcontained hescapes
    rcases hescapes.read_number with ⟨number, hnumber⟩
    cases hcontained.faults _ hnumber
  · intro hescapes
    refine ⟨fun fault hfault => unreadable_of_error hescapes hfault, ?_⟩
    rintro xs rfl
    cases hparts : xs.mapM fun x => read (.value (.list [x])) with
    | ok parts => exact ⟨parts, rfl, by rw [read_list, hparts]; rfl⟩
    | error fault =>
        -- A list is never refused for its text.
        have hfault : read (.value (.list xs)) = .error fault := by rw [read_list, hparts]; rfl
        cases unreadable_of_error hescapes hfault with
        | notJson text h notNumber => cases text

/-- A rule that holds by chance, with a percentage far above a hundred. -/
def hugeChance : Value :=
  .record [
    ("conditions", .record [("all", .list [.record [("fact", .text "currentPrice"),
      ("operator", .text "randomChance"), ("randomProbability", .int (tenTo 400))]])]),
    ("event", .record [("type", .text "BUY")])]

/-- A rule with nothing wrong. -/
def buyWhenUp : Value :=
  .record [
    ("conditions", .record [("all", .list [.record [("fact", .text "isPriceUp"),
      ("operator", .text "equal"), ("value", .bool true)]])]),
    ("event", .record [("type", .text "BUY")])]

theorem hugeChance_refuses_buyWhenUp :
    ¬Contained (.list [hugeChance, buyWhenUp]) ∧
      read (.value (.list [hugeChance, buyWhenUp])) = .error (.number .tooLarge) ∧
      read (.value (.list [buyWhenUp])) =
        .ok [⟨.allOf [.comparison "isPriceUp" .equal (.literal (.bool true))], ⟨.buy, []⟩, 1⟩] := by
  have hrefused : read (.value (.list [hugeChance, buyWhenUp])) = .error (.number .tooLarge) :=
    fault?_eq_some.1 (by decide +kernel)
  refine ⟨?_, hrefused, rfl⟩
  intro hcontained
  cases hcontained.faults _ hrefused

end RuleSet

end RuleTrader
