import Resumable.Proofs.Json.Scalars

/-!
# Values as text

`Spells` relates a value to its texts: the tokens of the value with any blanks between them.
Both layouts of the printer are such texts (`spells_prettyChars`, `spells_compactChars`), and
the reader gives the value for every one of them (`Spells.readsAs`), so a value is read back from
either layout (`ofText?_pretty`, `ofText?_compact`).

All of this is about values without odd numbers and without parts that can only be skipped
(`Plain`).  Such parts have no text that gives them again.

The reader looks one character ahead.  So two facts go along with the texts: they begin with no
blank and no closing bracket (`Spells.opens`), and what follows a value does not go on with a
number.
-/

namespace Resumable.Json

/-- A value that is made of whole numbers, strings, constants, arrays and objects. -/
inductive Plain : Json → Prop
  | null : Plain .null
  | bool (value : Bool) : Plain (.bool value)
  | int (value : Int) : Plain (.int value)
  | str (value : String) : Plain (.str value)
  | arr {items : List Json} (all : ∀ j ∈ items, Plain j) : Plain (.arr items)
  | obj {members : List (String × Json)} (all : ∀ m ∈ members, Plain m.2) : Plain (.obj members)

/-! ## The texts of a value -/

/-- What may stand between two tokens. -/
abbrev Blank (gap : List Char) : Prop := ∀ c ∈ gap, isBlank c = true

theorem blank_nil : Blank [] := fun _ mem => absurd mem List.not_mem_nil

/-- What one function of the reader reads. -/
inductive Part where
  | value (j : Json)
  /-- Items with the end of their array. -/
  | items (items : List Json)
  /-- Members with the end of their object. -/
  | members (members : List (String × Json))

/-- The texts of a part, with any blanks between the tokens. -/
inductive Spells : Part → List Char → Prop
  | null : Spells (.value .null) ['n', 'u', 'l', 'l']
  | true : Spells (.value (.bool true)) ['t', 'r', 'u', 'e']
  | false : Spells (.value (.bool false)) ['f', 'a', 'l', 's', 'e']
  | int (n : Int) : Spells (.value (.int n)) (decimal n)
  | str (s : String) : Spells (.value (.str s)) (quotedString s)
  | emptyArr {gap : List Char} (blank : Blank gap) :
    Spells (.value (.arr [])) ('[' :: (gap ++ [']']))
  | arr {gap text : List Char} {items : List Json} (blank : Blank gap)
      (spells : Spells (.items items) text) : Spells (.value (.arr items)) ('[' :: (gap ++ text))
  | emptyObj {gap : List Char} (blank : Blank gap) :
    Spells (.value (.obj [])) ('\x7b' :: (gap ++ ['\x7d']))
  | obj {gap text : List Char} {members : List (String × Json)} (blank : Blank gap)
      (spells : Spells (.members members) text) :
    Spells (.value (.obj members)) ('\x7b' :: (gap ++ text))
  | lastItem {gap text : List Char} {j : Json} (spells : Spells (.value j) text)
      (blank : Blank gap) : Spells (.items [j]) (text ++ (gap ++ [']']))
  | item {gap gap' text more : List Char} {j : Json} {items : List Json}
      (spells : Spells (.value j) text) (blank : Blank gap) (blank' : Blank gap')
      (rest : Spells (.items items) more) :
    Spells (.items (j :: items)) (text ++ (gap ++ ',' :: (gap' ++ more)))
  | lastMember {gap gap' gap'' text : List Char} {name : String} {j : Json} (blank : Blank gap)
      (blank' : Blank gap') (spells : Spells (.value j) text) (blank'' : Blank gap'') :
    Spells (.members [(name, j)])
      (quotedString name ++ (gap ++ ':' :: (gap' ++ (text ++ (gap'' ++ ['\x7d'])))))
  | member {gap₁ gap₂ gap₃ gap₄ text more : List Char} {name : String} {j : Json}
      {members : List (String × Json)} (blank₁ : Blank gap₁) (blank₂ : Blank gap₂)
      (spells : Spells (.value j) text) (blank₃ : Blank gap₃) (blank₄ : Blank gap₄)
      (rest : Spells (.members members) more) :
    Spells (.members ((name, j) :: members))
      (quotedString name ++
        (gap₁ ++ ':' :: (gap₂ ++ (text ++ (gap₃ ++ ',' :: (gap₄ ++ more))))))

/-! ## What the printer writes -/

section Printer

variable {text : Json → List Char} {gap close : List Char}

/-- A printer that puts a gap in front of each item writes a text of the items. -/
theorem spells_items {more : List Json → List Char} (blank : Blank gap) (blank' : Blank close)
    (last : more [] = close ++ [']'])
    (next : ∀ j items, more (j :: items) = ',' :: (gap ++ (text j ++ more items)))
    {first : Json} {items : List Json} (all : ∀ j ∈ first :: items, Spells (.value j) (text j)) :
    Spells (.items (first :: items)) (text first ++ more items) := by
  induction items generalizing first with
  | nil =>
    rw [last]
    exact .lastItem (all first List.mem_cons_self) blank'
  | cons j items ih =>
    obtain ⟨here, all⟩ := List.forall_mem_cons.1 all
    rw [next]
    exact .item here blank_nil blank (ih all)

/-- A printer that puts a gap in front of each member and one behind each colon writes a text of
the members. -/
theorem spells_members {space : List Char} {more : List (String × Json) → List Char}
    (blank : Blank gap) (blank' : Blank close) (blank'' : Blank space)
    (last : more [] = close ++ ['\x7d'])
    (next : ∀ name j members, more ((name, j) :: members) =
      ',' :: (gap ++ (quotedString name ++ ':' :: (space ++ (text j ++ more members)))))
    {name : String} {first : Json} {members : List (String × Json)}
    (all : ∀ m ∈ (name, first) :: members, Spells (.value m.2) (text m.2)) :
    Spells (.members ((name, first) :: members))
      (quotedString name ++ ':' :: (space ++ (text first ++ more members))) := by
  induction members generalizing name first with
  | nil =>
    rw [last]
    exact .lastMember blank_nil blank'' (all _ List.mem_cons_self) blank'
  | cons m members ih =>
    obtain ⟨here, all⟩ := List.forall_mem_cons.1 all
    rw [next]
    exact .member blank_nil blank'' here blank_nil blank (ih all)

end Printer

theorem blank_newline (depth : Nat) : Blank (newline depth) := by
  intro c mem
  rcases List.mem_cons.1 mem with rfl | mem
  · rfl
  · obtain ⟨-, rfl⟩ := List.mem_replicate.1 mem
    rfl

theorem spells_prettyChars {j : Json} (plain : j.Plain) (depth : Nat) :
    Spells (.value j) (prettyChars depth j) := by
  induction plain generalizing depth with
  | null => exact .null
  | bool value => cases value <;> constructor
  | int n => exact .int n
  | str s => exact .str s
  | @arr items _ ih =>
    cases items with
    | nil => exact .emptyArr blank_nil
    | cons j items =>
      simp only [prettyChars, List.cons_append, List.append_assoc]
      refine .arr (blank_newline _) (spells_items (blank_newline (depth + 1))
        (blank_newline depth) ?_ (fun j items => ?_) fun j mem => ih j mem (depth + 1))
      · rw [prettyItems]
      · simp only [prettyItems, List.cons_append, List.append_assoc]
  | @obj members _ ih =>
    cases members with
    | nil => exact .emptyObj blank_nil
    | cons m members =>
      have space : Blank [' '] := List.forall_mem_singleton.2 rfl
      simp only [prettyChars, List.cons_append, List.append_assoc]
      refine .obj (blank_newline _) (spells_members (blank_newline (depth + 1))
        (blank_newline depth) space ?_ (fun name j members => ?_) fun m mem => ih m mem (depth + 1))
      · rw [prettyMembers]
      · simp only [prettyMembers, List.cons_append, List.append_assoc, List.nil_append]

theorem spells_compactChars {j : Json} (plain : j.Plain) :
    Spells (.value j) (compactChars j) := by
  induction plain with
  | null => exact .null
  | bool value => cases value <;> constructor
  | int n => exact .int n
  | str s => exact .str s
  | @arr items _ ih =>
    cases items with
    | nil => exact .emptyArr blank_nil
    | cons j items =>
      simp only [compactChars, List.cons_append]
      refine @Spells.arr [] _ _ blank_nil
        (spells_items blank_nil blank_nil ?_ (fun j items => ?_) ih)
      · rw [compactItems, List.nil_append]
      · rw [compactItems, List.nil_append, List.cons_append]
  | @obj members _ ih =>
    cases members with
    | nil => exact .emptyObj blank_nil
    | cons m members =>
      simp only [compactChars, List.cons_append, List.append_assoc]
      refine @Spells.obj [] _ _ blank_nil (spells_members blank_nil blank_nil blank_nil ?_
        (fun name j members => ?_) ih)
      · rw [compactMembers, List.nil_append]
      · simp only [compactMembers, List.cons_append, List.append_assoc, List.nil_append]

/-! ## Beginnings -/

/-- The text begins with no blank and no closing bracket. -/
def Opens (text : List Char) : Prop :=
  ∃ c rest, text = c :: rest ∧ isBlank c = false ∧ c ≠ ']' ∧ c ≠ '\x7d'

theorem Opens.append {text : List Char} (h : Opens text) (more : List Char) :
    Opens (text ++ more) := by
  obtain ⟨c, rest, rfl, opens⟩ := h
  exact ⟨c, rest ++ more, rfl, opens⟩

/-- There is fuel for one step at least where there is enough for the text. -/
theorem Opens.fuel_eq_succ {text : List Char} {fuel : Nat} (h : Opens text)
    (enough : 2 * text.length ≤ fuel) : ∃ k, fuel = k + 1 := by
  obtain ⟨c, rest, rfl, -⟩ := h
  rw [List.length_cons] at enough
  exact ⟨fuel - 1, by omega⟩

theorem ne_of_isDigit {c d : Char} (digit : isDigit c = true) (other : isDigit d = false) :
    c ≠ d := by
  rintro rfl
  rw [digit] at other
  cases other

theorem isBlank_of_isDigit {c : Char} (digit : isDigit c = true) : isBlank c = false := by
  have other : ∀ d, isDigit d = false → (c == d) = false := fun d other =>
    beq_eq_false_iff_ne.2 (ne_of_isDigit digit other)
  simp only [isBlank, other ' ' (by decide), other '\n' (by decide), other '\t' (by decide),
    other '\r' (by decide), Bool.or_false]

theorem opens_decimal (n : Int) : Opens (decimal n) := by
  unfold decimal
  split
  · exact ⟨'-', _, rfl, by decide⟩
  · cases digits : Nat.toDigits 10 n.natAbs with
    | nil => exact absurd digits Nat.toDigits_ne_nil
    | cons c rest =>
      have digit : isDigit c = true := isDigit_of_mem_toDigits (digits ▸ List.mem_cons_self)
      exact ⟨c, rest, rfl, isBlank_of_isDigit digit, ne_of_isDigit digit (by decide),
        ne_of_isDigit digit (by decide)⟩

theorem Spells.opens {part : Part} {text : List Char} (h : Spells part text) : Opens text := by
  induction h with
  | int n => exact opens_decimal n
  | lastItem _ _ opens => exact opens.append _
  | item _ _ _ _ opens _ => exact opens.append _
  | _ => exact ⟨_, _, rfl, by decide⟩

/-! ## Steps of the reader -/

section Reader

-- The three readers are one recursion.  This gives their equations once, for all lemmas below.
attribute [local simp] value items members

variable {gap gap' cs rest : List Char} {fuel : Nat} {j : Json}

theorem skipBlanks_append (blank : Blank gap) (rest : List Char) :
    skipBlanks (gap ++ rest) = skipBlanks rest :=
  List.dropWhile_append_of_pos blank

theorem skipBlanks_cons {c : Char} (other : isBlank c = false) (rest : List Char) :
    skipBlanks (c :: rest) = c :: rest :=
  List.dropWhile_cons_of_neg (by simp [other])

theorem Opens.skipBlanks_eq (h : Opens cs) : skipBlanks cs = cs := by
  obtain ⟨c, rest, rfl, other, -⟩ := h
  exact skipBlanks_cons other rest

theorem quotedString_append (s : String) (rest : List Char) :
    quotedString s ++ rest = '"' :: (s.toList.flatMap escapedChar ++ '"' :: rest) := by
  simp [quotedString]

theorem value_quotedString (s : String) :
    value (fuel + 1) (quotedString s ++ rest) = some (.str s, rest) := by
  rw [quotedString_append, value, if_pos rfl, stringRest_escaped]
  rfl

theorem value_decimal (stops : Stops rest) (n : Int) :
    value (fuel + 1) (decimal n ++ rest) = some (.int n, rest) := by
  unfold decimal
  split
  · rename_i negative
    have pos : n.natAbs ≠ 0 := by omega
    have same : -(n.natAbs : Int) = n := by omega
    have read := unsigned_toDigits_neg stops pos
    rw [same] at read
    exact read
  · have same : (n.natAbs : Int) = n := by omega
    have read := unsigned_toDigits (n := n.natAbs) stops
    rw [same] at read
    cases digits : Nat.toDigits 10 n.natAbs with
    | nil => exact absurd digits Nat.toDigits_ne_nil
    | cons c more =>
      have digit : isDigit c = true := isDigit_of_mem_toDigits (digits ▸ List.mem_cons_self)
      rw [digits] at read
      rw [List.cons_append] at read ⊢
      rw [value]
      repeat rw [if_neg (ne_of_isDigit digit (by decide))]
      exact read

theorem value_emptyArr (blank : Blank gap) :
    value (fuel + 1) ('[' :: (gap ++ ']' :: rest)) = some (.arr [], rest) := by
  rw [value, if_neg (by decide), if_pos rfl, skipBlanks_append blank, skipBlanks_cons (by decide)]
  rfl

theorem value_arr (blank : Blank gap) (opens : Opens cs) :
    value (fuel + 1) ('[' :: (gap ++ cs)) = (items fuel cs).map fun r => (.arr r.1, r.2) := by
  rw [value, if_neg (by decide), if_pos rfl, skipBlanks_append blank, opens.skipBlanks_eq]
  obtain ⟨c, rest, rfl, -, other, -⟩ := opens
  split
  · rename_i same
    exact absurd (List.cons.inj same).1 other
  · rfl

theorem value_emptyObj (blank : Blank gap) :
    value (fuel + 1) ('\x7b' :: (gap ++ '\x7d' :: rest)) = some (.obj [], rest) := by
  rw [value, if_neg (by decide), if_neg (by decide), if_pos rfl, skipBlanks_append blank,
    skipBlanks_cons (by decide)]
  rfl

theorem value_obj (blank : Blank gap) (opens : Opens cs) :
    value (fuel + 1) ('\x7b' :: (gap ++ cs)) =
      (members fuel cs).map fun r => (object r.1, r.2) := by
  rw [value, if_neg (by decide), if_neg (by decide), if_pos rfl, skipBlanks_append blank,
    opens.skipBlanks_eq]
  obtain ⟨c, rest, rfl, -, -, other⟩ := opens
  split
  · rename_i same
    exact absurd (List.cons.inj same).1 other
  · rfl

/-- What is read back item by item is read back as a list. -/
theorem mapM_map_eq_some {α β : Type} {write : α → β} {read : β → Option α} {items : List α}
    (all : ∀ a ∈ items, read (write a) = some a) : (items.map write).mapM read = some items := by
  induction items with
  | nil => rfl
  | cons a items ih =>
    obtain ⟨here, all⟩ := List.forall_mem_cons.1 all
    simp only [List.map_cons, List.mapM_cons, here, ih all, Option.bind_eq_bind,
      Option.bind_some, Option.pure_def]

theorem object_named (named : List (String × Json)) :
    object (named.map fun m => (some m.1, m.2)) = .obj named := by
  have all : (named.map fun m => (some m.1, m.2)).mapM
      (fun m : Option String × Json => m.1.map fun name => (name, m.2)) = some named :=
    mapM_map_eq_some fun _ _ => rfl
  unfold object
  rw [all]

theorem items_last (read : value fuel cs = some (j, gap ++ ']' :: rest)) (blank : Blank gap) :
    items (fuel + 1) cs = some ([j], rest) := by
  rw [items, read, Option.bind_eq_bind, Option.bind_some]
  simp only [skipBlanks_append blank, skipBlanks_cons (show isBlank ']' = false by decide)]
  rfl

theorem items_more {more : List Char}
    (read : value fuel cs = some (j, gap ++ ',' :: (gap' ++ more))) (blank : Blank gap)
    (blank' : Blank gap') (opens : Opens more) :
    items (fuel + 1) cs = (items fuel more).map fun r => (j :: r.1, r.2) := by
  rw [items, read, Option.bind_eq_bind, Option.bind_some]
  simp only [skipBlanks_append blank, skipBlanks_append blank', opens.skipBlanks_eq,
    skipBlanks_cons (show isBlank ',' = false by decide)]
  cases items fuel more <;> rfl

theorem members_last {gap'' : List Char} (name : String) (blank : Blank gap)
    (blank' : Blank gap') (opens : Opens cs)
    (read : value fuel cs = some (j, gap'' ++ '\x7d' :: rest)) (blank'' : Blank gap'') :
    members (fuel + 1) (quotedString name ++ (gap ++ ':' :: (gap' ++ cs))) =
      some ([(some name, j)], rest) := by
  rw [quotedString_append, members]
  simp only [stringRest_escaped, read, opens.skipBlanks_eq, skipBlanks_append blank,
    skipBlanks_append blank', skipBlanks_append blank'', Option.bind_eq_bind, Option.bind_some,
    skipBlanks_cons (show isBlank ':' = false by decide),
    skipBlanks_cons (show isBlank '\x7d' = false by decide), Option.pure_def]

theorem members_more {gap₃ gap₄ more : List Char} (name : String) (blank : Blank gap)
    (blank' : Blank gap') (opens : Opens cs)
    (read : value fuel cs = some (j, gap₃ ++ ',' :: (gap₄ ++ more))) (blank₃ : Blank gap₃)
    (blank₄ : Blank gap₄) (opens' : Opens more) :
    members (fuel + 1) (quotedString name ++ (gap ++ ':' :: (gap' ++ cs))) =
      (members fuel more).map fun r => ((some name, j) :: r.1, r.2) := by
  rw [quotedString_append, members]
  simp only [stringRest_escaped, read, opens.skipBlanks_eq, opens'.skipBlanks_eq,
    skipBlanks_append blank, skipBlanks_append blank', skipBlanks_append blank₃,
    skipBlanks_append blank₄, Option.bind_eq_bind, Option.bind_some,
    skipBlanks_cons (show isBlank ':' = false by decide),
    skipBlanks_cons (show isBlank ',' = false by decide)]
  cases members fuel more <;> rfl

end Reader

/-! ## Values are read back -/

/-- The reader gives a part and the rest of the text. -/
def Part.ReadsAs (fuel : Nat) (cs rest : List Char) : Part → Prop
  | .value j => Json.value fuel cs = some (j, rest)
  | .items list => Json.items fuel cs = some (list, rest)
  | .members list => Json.members fuel cs = some (list.map fun m => (some m.1, m.2), rest)

/-- A number ends where something begins that may stand behind an item. -/
theorem stops_gap {gap : List Char} (blank : Blank gap) {c : Char} (stop : Stops [c])
    (rest : List Char) : Stops (gap ++ c :: rest) := by
  cases gap with
  | nil => exact stop
  | cons b gap =>
    rintro _ ⟨⟩
    have blank : isBlank b = true := blank b List.mem_cons_self
    simp only [isBlank, Bool.or_eq_true, beq_iff_eq] at blank
    obtain ((rfl | rfl) | rfl) | rfl := blank <;> decide

theorem stops_comma : Stops [','] := by
  rintro _ ⟨⟩
  decide

theorem stops_bracket : Stops [']'] := by
  rintro _ ⟨⟩
  decide

theorem stops_brace : Stops ['\x7d'] := by
  rintro _ ⟨⟩
  decide

/-- Every text of a part is read as the part, whatever stands behind it. -/
theorem Spells.readsAs {part : Part} {text : List Char} (h : Spells part text) {fuel : Nat}
    (enough : 2 * text.length ≤ fuel) {rest : List Char} (stops : Stops rest) :
    part.ReadsAs fuel (text ++ rest) rest := by
  obtain ⟨fuel, rfl⟩ := h.opens.fuel_eq_succ enough
  induction h generalizing fuel rest with
  | null => rfl
  | true => rfl
  | false => rfl
  | int n => exact value_decimal stops n
  | str s => exact value_quotedString s
  | emptyArr blank =>
    rw [List.cons_append, List.append_assoc]
    exact value_emptyArr blank
  | arr blank spells ih =>
    simp only [List.length_cons, List.length_append] at enough
    obtain ⟨fuel, rfl⟩ := spells.opens.fuel_eq_succ (show _ ≤ fuel by omega)
    have read := ih stops fuel (by omega)
    unfold Part.ReadsAs at read ⊢
    rw [List.cons_append, List.append_assoc, value_arr blank (spells.opens.append _), read]
    rfl
  | emptyObj blank =>
    rw [List.cons_append, List.append_assoc]
    exact value_emptyObj blank
  | obj blank spells ih =>
    simp only [List.length_cons, List.length_append] at enough
    obtain ⟨fuel, rfl⟩ := spells.opens.fuel_eq_succ (show _ ≤ fuel by omega)
    have read := ih stops fuel (by omega)
    unfold Part.ReadsAs at read ⊢
    rw [List.cons_append, List.append_assoc, value_obj blank (spells.opens.append _), read,
      Option.map_some, object_named]
  | lastItem spells blank ih =>
    simp only [List.length_append, List.length_singleton] at enough
    obtain ⟨fuel, rfl⟩ := spells.opens.fuel_eq_succ (show _ ≤ fuel by omega)
    have read := ih (stops_gap blank stops_bracket rest) fuel (by omega)
    rw [List.append_assoc, List.append_assoc]
    exact items_last read blank
  | @item _ gap' _ more _ _ spells blank blank' spells' ih ih' =>
    simp only [List.length_cons, List.length_append] at enough
    obtain ⟨fuel, rfl⟩ := spells.opens.fuel_eq_succ (show _ ≤ fuel by omega)
    have read := ih (stops_gap blank stops_comma (gap' ++ (more ++ rest))) fuel (by omega)
    have behind := ih' stops fuel (by omega)
    unfold Part.ReadsAs at behind ⊢
    simp only [List.append_assoc, List.cons_append]
    rw [items_more read blank blank' (spells'.opens.append _), behind]
    rfl
  | lastMember blank blank' spells blank'' ih =>
    simp only [List.length_cons, List.length_append, List.length_nil] at enough
    obtain ⟨fuel, rfl⟩ := spells.opens.fuel_eq_succ (show _ ≤ fuel by omega)
    have read := ih (stops_gap blank'' stops_brace rest) fuel (by omega)
    simp only [List.append_assoc, List.cons_append, List.nil_append]
    exact members_last _ blank blank' (spells.opens.append _) read blank''
  | @member _ _ _ gap₄ _ more _ _ _ blank₁ blank₂ spells blank₃ blank₄ spells' ih ih' =>
    simp only [List.length_cons, List.length_append] at enough
    obtain ⟨fuel, rfl⟩ := spells.opens.fuel_eq_succ (show _ ≤ fuel by omega)
    have read := ih (stops_gap blank₃ stops_comma (gap₄ ++ (more ++ rest))) fuel (by omega)
    have behind := ih' stops fuel (by omega)
    unfold Part.ReadsAs at behind ⊢
    simp only [List.append_assoc, List.cons_append]
    rw [members_more _ blank₁ blank₂ (spells.opens.append _) read blank₃ blank₄
      (spells'.opens.append _), behind]
    rfl

/-- A text of a value denotes it, with blanks around it too. -/
theorem ofChars?_of_spells {j : Json} {text before behind : List Char}
    (h : Spells (.value j) text) (blank : Blank before) (blank' : Blank behind) :
    ofChars? (before ++ (text ++ behind)) = some j := by
  have stops : Stops behind := by
    have gap := stops_gap blank' stops_comma []
    cases behind with
    | nil => rintro _ ⟨⟩
    | cons c behind => exact fun d head => gap d head
  have read := h.readsAs (show 2 * text.length ≤ 2 * (before ++ (text ++ behind)).length + 2 by
    simp only [List.length_append]
    omega) stops
  unfold Part.ReadsAs at read
  have nothing : skipBlanks behind = [] := by
    have all := skipBlanks_append blank' []
    rwa [List.append_nil] at all
  unfold ofChars?
  rw [skipBlanks_append blank, (h.opens.append _).skipBlanks_eq, read, Option.bind_eq_bind,
    Option.bind_some]
  simp only [nothing, List.isEmpty_nil, if_true]

theorem ofText?_pretty {j : Json} (plain : j.Plain) : ofText? j.pretty = some j := by
  have read := ofChars?_of_spells (spells_prettyChars plain 0) blank_nil blank_nil
  rwa [List.nil_append, List.append_nil, ← @String.toList_ofList (prettyChars 0 j)] at read

theorem ofText?_compact {j : Json} (plain : j.Plain) : ofText? j.compact = some j := by
  have read := ofChars?_of_spells (spells_compactChars plain) blank_nil blank_nil
  rwa [List.nil_append, List.append_nil, ← @String.toList_ofList (compactChars j)] at read

end Resumable.Json
