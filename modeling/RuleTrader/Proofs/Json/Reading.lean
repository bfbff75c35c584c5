import RuleTrader.Proofs.Json.Escape
import RuleTrader.Proofs.Json.Numeral
import RuleTrader.Proofs.Json.Writing
import RuleTrader.Proofs.Outcome
import RuleTrader.Proofs.Table

/-!
# What is written is read back

`Json.Readable depth v` says that JSON text gives the value `v` back within `depth` open containers: its
numbers are plain, no text has two halves that make a pair, and no record has two fields of one name.
Every such value is read from its text as it was (`read_written`), so JSON text is faithful to it.
-/

namespace RuleTrader

namespace Json

/-- A value that JSON text gives back, within so many open containers. -/
inductive Readable : Nat → Value → Prop
  | null {depth : Nat} : Readable depth .null
  | bool {depth : Nat} (b : Bool) : Readable depth (.bool b)
  | number {depth : Nat} {x : Number} (plain : x.Plain) : Readable depth (.number x)
  | text {depth : Nat} {s : String} (unpaired : Unpaired s.toList) : Readable depth (.text s)
  | list {depth : Nat} {items : List Value} (parts : ∀ v ∈ items, Readable depth v) :
      Readable (depth + 1) (.list items)
  | record {depth : Nat} {fields : List (String × Value)} (apart : (Table.keys fields).Nodup)
      (names : ∀ e ∈ fields, Unpaired e.1.toList) (parts : ∀ e ∈ fields, Readable depth e.2) :
      Readable (depth + 1) (.record fields)

theorem Readable.plain {depth : Nat} {v : Value} (h : Readable depth v) : v.Plain := by
  induction h with
  | null => exact .null
  | bool b => exact .bool b
  | number plain => exact .number plain
  | text unpaired => exact .text _
  | list parts ih => exact .list ih
  | record apart names parts ih => exact .record apart ih

/-- What is given back within a depth is given back within every greater one. -/
theorem Readable.mono {n : Nat} {v : Value} (h : Readable n v) {m : Nat} (hle : n ≤ m) : Readable m v := by
  induction h generalizing m with
  | null => exact .null
  | bool b => exact .bool b
  | number plain => exact .number plain
  | text unpaired => exact .text unpaired
  | list parts ih =>
      obtain ⟨k, rfl⟩ : ∃ k, m = k + 1 := ⟨m - 1, by omega⟩
      exact .list fun v hv => ih v hv (by omega)
  | record apart names parts ih =>
      obtain ⟨k, rfl⟩ : ∃ k, m = k + 1 := ⟨m - 1, by omega⟩
      exact .record apart names fun e he => ih e he (by omega)

/-! ## Blanks -/

theorem skipSpace_of_head {cs : List Char} (h : ∀ c, cs.head? = some c → isSpace c = false) :
    skipSpace cs = cs := by
  cases cs with
  | nil => rfl
  | cons c cs => exact List.dropWhile_cons_of_neg (by simp [h c rfl])

theorem Closes.skipSpace {rest : List Char} (h : Closes rest) : skipSpace rest = rest := by
  refine skipSpace_of_head fun c hc => ?_
  rcases h c hc with rfl | rfl | rfl <;> rfl

theorem closes_cons {c : Char} (h : c = ',' ∨ c = ']' ∨ c = '\x7d') (rest : List Char) :
    Closes (c :: rest) := by
  intro d hd
  cases hd
  exact h

/-! ## How a value starts -/

/-- The first character of a value: no blank, no end of a list and no mark of the byte order. -/
def Opens (cs : List Char) : Prop :=
  ∃ c, cs.head? = some c ∧ isSpace c = false ∧ c ≠ ']' ∧ c ≠ '\uFEFF'

theorem Opens.ne_nil {cs : List Char} (h : Opens cs) : cs ≠ [] := by
  rintro rfl
  rcases h with ⟨c, hc, -⟩
  cases hc

theorem Opens.append {cs : List Char} (h : Opens cs) (rest : List Char) : Opens (cs ++ rest) := by
  rcases h with ⟨c, hc, hspace⟩
  exact ⟨c, by simp [List.head?_append, hc], hspace⟩

theorem Opens.skipSpace {cs : List Char} (h : Opens cs) : skipSpace cs = cs := by
  rcases h with ⟨c, hc, hspace, -⟩
  refine skipSpace_of_head fun d hd => ?_
  rw [hc] at hd
  cases hd
  exact hspace

theorem OpensNumber.opens {cs : List Char} (h : OpensNumber cs) : Opens cs := by
  rcases h with ⟨c, hc, hstart⟩
  have hother : ∀ d, d.isDigit = false → d ≠ '-' → d ≠ 'I' → c ≠ d := by
    rintro d hdigit hminus hletter rfl
    rcases hstart with h | h | h
    · rw [hdigit] at h
      cases h
    · exact hminus h
    · exact hletter h
  refine ⟨c, hc, ?_, hother ']' (by decide) (by decide) (by decide),
    hother '\uFEFF' (by decide) (by decide) (by decide)⟩
  simp only [isSpace, hother ' ' (by decide) (by decide) (by decide),
    hother '\t' (by decide) (by decide) (by decide), hother '\n' (by decide) (by decide) (by decide),
    hother '\r' (by decide) (by decide) (by decide), decide_false, Bool.or_self]

theorem opensNumber_write {x : Number} (hx : x.Plain) {cs : List Char} (h : writeNumber x = .ok cs) :
    OpensNumber cs := by
  cases hx with
  | int short => exact opensNumber_int (ok_of_mapError h)
  | float defined =>
      cases h
      exact opensNumber_float defined

theorem writeItems_open {none lead : List Char} (hnone : Opens none) (hlead : Opens lead)
    {items : List Value} {cs : List Char} (h : writeItems none lead items = .ok cs) : Opens cs := by
  cases items with
  | nil =>
      cases h
      exact hnone
  | cons v vs =>
      rw [writeItems] at h
      rcases bind_ok h with ⟨here, -, hrest⟩
      rcases bind_ok hrest with ⟨rest, -, hcs⟩
      cases hcs
      exact (hlead.append here).append rest

theorem writeFields_open {none lead : List Char} (hnone : Opens none) (hlead : Opens lead)
    {fields : List (String × Value)} {cs : List Char} (h : writeFields none lead fields = .ok cs) :
    Opens cs := by
  cases fields with
  | nil =>
      cases h
      exact hnone
  | cons e fields =>
      rw [writeFields] at h
      rcases bind_ok h with ⟨here, -, hrest⟩
      rcases bind_ok hrest with ⟨rest, -, hcs⟩
      cases hcs
      exact (((hlead.append _).append _).append here).append rest

/-- The text of a value starts with neither a blank nor the end of a list. -/
theorem opens_write {depth : Nat} {v : Value} (hv : Readable depth v) {cs : List Char}
    (h : writeValue v = .ok cs) : Opens cs := by
  cases hv with
  | null =>
      cases h
      exact ⟨'n', rfl, by decide⟩
  | bool b =>
      cases h
      cases b with
      | false => exact ⟨'f', rfl, by decide⟩
      | true => exact ⟨'t', rfl, by decide⟩
  | number plain => exact (opensNumber_write plain h).opens
  | text unpaired =>
      cases h
      exact ⟨'"', rfl, by decide⟩
  | list parts => exact writeItems_open ⟨'[', rfl, by decide⟩ ⟨'[', rfl, by decide⟩ h
  | record apart names parts =>
      exact writeFields_open ⟨'\x7b', rfl, by decide⟩ ⟨'\x7b', rfl, by decide⟩ h

/-! ## Reading the parts of a container -/

/-- A reader that gives the value back from its text. -/
def Restores (item : List Char → Step Value) (limit : Nat) (v : Value) : Prop :=
  ∀ cs, writeValue v = .ok cs → cs.length ≤ limit → ∀ rest, Closes rest → item (cs ++ rest) = .ok (v, rest)

/-- The items from the first one on are read back: each takes more of the text than of the fuel. -/
theorem readItems_write {item : List Char → Step Value} {limit depth : Nat} {v : Value} {vs : List Value}
    (hreadable : ∀ w ∈ v :: vs, Readable depth w) (hrestores : ∀ w ∈ v :: vs, Restores item limit w)
    {here tail : List Char} (hhere : writeValue v = .ok here)
    (htail : writeItems "]".toList ", ".toList vs = .ok tail) {fuel : Nat}
    (hfuel : here.length + tail.length ≤ fuel) (hlimit : fuel ≤ limit) (rest : List Char) :
    readItems item fuel (here ++ (tail ++ rest)) = .ok (v :: vs, rest) := by
  have hv := hrestores v (List.mem_cons_self ..) here hhere (by omega)
  induction vs generalizing v here tail fuel with
  | nil =>
      cases htail
      obtain ⟨fuel, rfl⟩ : ∃ k, fuel = k + 1 := ⟨fuel - 1, by simp at hfuel; omega⟩
      -- The last item: the end of the list follows.
      have hclose := closes_cons (Or.inr (Or.inl rfl)) rest
      have hread : item (here ++ ("]".toList ++ rest)) = .ok (v, ']' :: rest) := hv _ hclose
      rw [readItems, hread]
      simp only [bind, Except.bind, hclose.skipSpace]
      rfl
  | cons w ws ih =>
      rw [writeItems] at htail
      rcases bind_ok htail with ⟨next, hnext, hrest⟩
      rcases bind_ok hrest with ⟨later, hlater, hwritten⟩
      cases hwritten
      obtain ⟨fuel, rfl⟩ : ∃ k, fuel = k + 1 := ⟨fuel - 1, by simp at hfuel; omega⟩
      have hlength : next.length + later.length ≤ fuel := by
        simp only [List.length_append] at hfuel
        have : ", ".toList.length = 2 := rfl
        omega
      have hw := hrestores w (by simp) next hnext (by omega)
      have hothers := ih (fun x hx => hreadable x (List.mem_cons_of_mem _ hx))
        (fun x hx => hrestores x (List.mem_cons_of_mem _ hx)) hnext hlater hlength (by omega) hw
      -- A comma and a blank, then the other items by the induction hypothesis.
      have hclose := closes_cons (Or.inl rfl) (' ' :: (next ++ (later ++ rest)))
      have hread : item (here ++ (", ".toList ++ next ++ later ++ rest)) =
          .ok (v, ',' :: ' ' :: (next ++ (later ++ rest))) := by
        have htext : ", ".toList ++ next ++ later ++ rest = ',' :: ' ' :: (next ++ (later ++ rest)) := by
          simp
        rw [htext]
        exact hv _ hclose
      have hblank : skipSpace (' ' :: (next ++ (later ++ rest))) = next ++ (later ++ rest) :=
        ((opens_write (hreadable w (by simp)) hnext).append _).skipSpace
      rw [readItems, hread]
      simp only [bind, Except.bind, hclose.skipSpace, hblank, hothers]
      rfl

/-- One field is read as its name and its value, whatever follows the value. -/
theorem readFields_step {item : List Char → Step Value} {name : String} (hname : Unpaired name.toList)
    {v : Value} {here after : List Char} (hopens : Opens here)
    (hread : item (here ++ after) = .ok (v, after)) (fuel : Nat) :
    readFields item (fuel + 1) (writeText name ++ (": ".toList ++ (here ++ after))) =
      match skipSpace after with
      | '\x7d' :: rest => .ok ([(name, v)], rest)
      | ',' :: rest => do
        let (fields, rest) ← readFields item fuel (skipSpace rest)
        return ((name, v) :: fields, rest)
      | _ => .error .expectedComma := by
  have htext : writeText name ++ (": ".toList ++ (here ++ after)) =
      '"' :: (name.toList.flatMap writeChar ++ '"' :: ':' :: ' ' :: (here ++ after)) := by
    simp [writeText]
  have hcolon : skipSpace (':' :: ' ' :: (here ++ after)) = ':' :: ' ' :: (here ++ after) := rfl
  have hblank : skipSpace (' ' :: (here ++ after)) = here ++ after := (hopens.append after).skipSpace
  rw [htext, readFields, readText_write hname]
  simp only [bind, Except.bind, hcolon, hblank, hread, String.ofList_toList]
  rfl

/-- The fields from the first one on are read back. -/
theorem readFields_write {item : List Char → Step Value} {limit depth : Nat} {e : String × Value}
    {fields : List (String × Value)} (hnames : ∀ f ∈ e :: fields, Unpaired f.1.toList)
    (hreadable : ∀ f ∈ e :: fields, Readable depth f.2)
    (hrestores : ∀ f ∈ e :: fields, Restores item limit f.2) {here tail : List Char}
    (hhere : writeValue e.2 = .ok here) (htail : writeFields "\x7d".toList ", ".toList fields = .ok tail)
    {fuel : Nat} (hfuel : here.length + tail.length ≤ fuel) (hlimit : fuel ≤ limit) (rest : List Char) :
    readFields item fuel (writeText e.1 ++ (": ".toList ++ (here ++ (tail ++ rest)))) =
      .ok (e :: fields, rest) := by
  have hv := hrestores e (List.mem_cons_self ..) here hhere (by omega)
  have hopens := opens_write (hreadable e (List.mem_cons_self ..)) hhere
  have hname := hnames e (List.mem_cons_self ..)
  -- The fuel is spent on fields, and each takes at least the text of its value.
  induction fields generalizing e here tail fuel with
  | nil =>
      cases htail
      obtain ⟨fuel, rfl⟩ : ∃ k, fuel = k + 1 := ⟨fuel - 1, by simp at hfuel; omega⟩
      have hclose := closes_cons (Or.inr (Or.inr rfl)) rest
      have hread : item (here ++ ("\x7d".toList ++ rest)) = .ok (e.2, "\x7d".toList ++ rest) := hv _ hclose
      have hskip : skipSpace ("\x7d".toList ++ rest) = '\x7d' :: rest := hclose.skipSpace
      rw [readFields_step hname hopens hread, hskip]
      rfl
  | cons f fields ih =>
      rw [writeFields] at htail
      rcases bind_ok htail with ⟨next, hnext, hrest⟩
      rcases bind_ok hrest with ⟨later, hlater, hwritten⟩
      cases hwritten
      obtain ⟨fuel, rfl⟩ : ∃ k, fuel = k + 1 := ⟨fuel - 1, by simp at hfuel; omega⟩
      have hlength : next.length + later.length ≤ fuel := by
        simp only [List.length_append] at hfuel
        have : ", ".toList.length = 2 := rfl
        omega
      have hw := hrestores f (by simp) next hnext (by omega)
      have hothers := ih (fun x hx => hnames x (List.mem_cons_of_mem _ hx))
        (fun x hx => hreadable x (List.mem_cons_of_mem _ hx))
        (fun x hx => hrestores x (List.mem_cons_of_mem _ hx)) hnext hlater hlength (by omega) hw
        (opens_write (hreadable f (by simp)) hnext) (hnames f (by simp))
      have htext : ", ".toList ++ writeText f.1 ++ ": ".toList ++ next ++ later ++ rest =
          ',' :: ' ' :: (writeText f.1 ++ (": ".toList ++ (next ++ (later ++ rest)))) := by
        simp
      have hclose := closes_cons (Or.inl rfl)
        (' ' :: (writeText f.1 ++ (": ".toList ++ (next ++ (later ++ rest)))))
      have hblank : skipSpace (' ' :: (writeText f.1 ++ (": ".toList ++ (next ++ (later ++ rest))))) =
          writeText f.1 ++ (": ".toList ++ (next ++ (later ++ rest))) := rfl
      rw [htext, readFields_step hname hopens (hv _ hclose), hclose.skipSpace]
      simp only [bind, Except.bind, hblank, hothers]
      rfl

/-! ## Reading a value -/

/-- What starts like a number or a word is read as one. -/
theorem readValue_plain {c : Char} (hquote : c ≠ '"') (hlist : c ≠ '[') (hrecord : c ≠ '\x7b')
    (cs : List Char) (fuel depth : Nat) : readValue fuel depth (c :: cs) = readPlain (c :: cs) := by
  rw [readValue]
  all_goals
    intros
    simp_all

theorem OpensNumber.readValue {cs : List Char} (h : OpensNumber cs) (rest : List Char) (fuel depth : Nat) :
    readValue fuel depth (cs ++ rest) = readPlain (cs ++ rest) := by
  rcases h with ⟨c, hc, hstart⟩
  cases cs with
  | nil => cases hc
  | cons d cs =>
      cases hc
      refine readValue_plain ?_ ?_ ?_ (cs ++ rest) fuel depth <;>
        · rintro rfl
          exact absurd hstart (by decide)

/-- A text is read alike within every depth. -/
theorem readValue_text (fuel depth : Nat) (cs : List Char) :
    readValue fuel depth ('"' :: cs) =
      (readText cs).map fun (t, rest) => (.text (String.ofList t), rest) := by
  cases depth <;> rw [readValue]

/-- A value is read back from its text up to where something closes it. The induction is on the value:
each container takes one from the depth, and no part has more characters than the whole. -/
theorem readValue_write {depth : Nat} {v : Value} (h : Readable depth v) (limit : Nat) :
    Restores (readValue limit depth) limit v := by
  induction h with
  | null =>
      rintro _ ⟨⟩ - rest -
      exact readValue_plain (by decide) (by decide) (by decide) ("ull".toList ++ rest) limit _
  | bool b =>
      rintro _ ⟨⟩ - rest -
      cases b with
      | false => exact readValue_plain (by decide) (by decide) (by decide) ("alse".toList ++ rest) limit _
      | true => exact readValue_plain (by decide) (by decide) (by decide) ("rue".toList ++ rest) limit _
  | number plain =>
      intro cs hcs _ rest hrest
      rw [(opensNumber_write plain hcs).readValue rest]
      cases plain with
      | int short => exact readPlain_int (ok_of_mapError hcs) hrest
      | float defined =>
          cases hcs
          exact readPlain_float defined hrest
  | @text depth s unpaired =>
      rintro _ ⟨⟩ - rest -
      have htext : writeText s ++ rest = '"' :: (s.toList.flatMap writeChar ++ '"' :: rest) := by
        simp [writeText]
      rw [htext, readValue_text, readText_write unpaired]
      simp [Except.map]
  | @list depth items parts ih =>
      intro cs hcs hlimit rest hrest
      cases items with
      | nil =>
          cases hcs
          rfl
      | cons v vs =>
          rw [writeValue, writeItems] at hcs
          rcases bind_ok hcs with ⟨here, hhere, hcs⟩
          rcases bind_ok hcs with ⟨tail, htail, hcs⟩
          cases hcs
          have hlength : here.length + tail.length ≤ limit := by
            simp only [List.length_append] at hlimit
            omega
          have hitems := readItems_write parts ih hhere htail hlength (Nat.le_refl _) rest
          have hopens := (opens_write (parts v (List.mem_cons_self ..)) hhere).append (tail ++ rest)
          have htext : "[".toList ++ here ++ tail ++ rest = '[' :: (here ++ (tail ++ rest)) := by simp
          rw [htext, readValue, hopens.skipSpace]
          split
          · -- The list would be empty.
            rename_i hclose
            rcases hopens with ⟨c, hc, -, hother, -⟩
            rw [hclose] at hc
            cases hc
            exact absurd rfl hother
          · rw [hitems]
            rfl
  | @record depth fields apart names parts ih =>
      intro cs hcs hlimit rest hrest
      cases fields with
      | nil =>
          cases hcs
          rfl
      | cons e fields =>
          rw [writeValue, writeFields] at hcs
          rcases bind_ok hcs with ⟨here, hhere, hcs⟩
          rcases bind_ok hcs with ⟨tail, htail, hcs⟩
          cases hcs
          have hlength : here.length + tail.length ≤ limit := by
            simp only [List.length_append] at hlimit
            omega
          have hfields := readFields_write names parts ih hhere htail hlength (Nat.le_refl _) rest
          have htext : "\x7b".toList ++ writeText e.1 ++ ": ".toList ++ here ++ tail ++ rest =
              '\x7b' :: (writeText e.1 ++ (": ".toList ++ (here ++ (tail ++ rest)))) := by simp
          have hskip : skipSpace (writeText e.1 ++ (": ".toList ++ (here ++ (tail ++ rest)))) =
              writeText e.1 ++ (": ".toList ++ (here ++ (tail ++ rest))) := rfl
          rw [htext, readValue, hskip]
          split
          · rename_i hclose
            cases hclose
          · rw [hfields]
            simp only [Except.map, Table.ofList_of_nodup apart]

/-- JSON text gives back every value that lies within its limits. -/
theorem read_written {v : Value} (h : Readable depthLimit v) {text : String} (hwrite : write v = .ok text) :
    read text = .ok v := by
  have hcs : ∃ cs, writeValue v = .ok cs ∧ text = String.ofList cs := by
    unfold write at hwrite
    cases hvalue : writeValue v with
    | error fault =>
        rw [hvalue] at hwrite
        cases hwrite
    | ok cs =>
        rw [hvalue] at hwrite
        cases hwrite
        exact ⟨cs, rfl, rfl⟩
  rcases hcs with ⟨cs, hcs, rfl⟩
  have hopens := opens_write h hcs
  have hvalue := readValue_write h cs.length cs hcs (Nat.le_refl _) [] (fun _ hnone => nomatch hnone)
  rw [List.append_nil] at hvalue
  unfold read
  rw [String.toList_ofList]
  split
  · rcases hopens with ⟨c, hc, -, -, hmark⟩
    cases hc
    exact absurd rfl hmark
  · rw [hopens.skipSpace, hvalue]
    rfl

end Json

end RuleTrader
