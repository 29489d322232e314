import Admission.Proofs.Toml.Values

/-!
# Lines do what they say

A name is read up to where no name goes on, be it between marks or not (`readName_nameText`), and a
dotted key with all of its parts (`readKeyWithin_toText`). So each line is read up to its end and
does what it says (`readLine_toText`), and a text of lines builds the table that its lines build one
after the other; if one of them is forbidden after those before it, the text is refused
(`ofText_linesText`). Entries below a header leave what stands under other names alone
(`get?_foldlM_entries`); where the header leads to a table (`LeadsTo`), entries of new names go to
its end, whatever stands around it (`LeadsTo.foldlM_plain`).
-/

namespace Admission.Toml

open Admission.Text

variable {rest : List Char} {key : Key}

/-! ## Names -/

lemma ne_of_isBare {c d : Char} (h : isBare c = true) (hd : isBare d = false) : c ≠ d := by
  rintro rfl
  exact absurd h (by simp [hd])

/-- A name opens with one of its own characters or with a mark. -/
lemma nameText_eq_cons (name : String) :
    ∃ c rest, nameText name = c :: rest ∧ (isBare c = true ∨ c = '"') := by
  unfold nameText
  split
  · rename_i hbare
    obtain ⟨c, rest, hname⟩ := List.exists_cons_of_ne_nil hbare.1
    have hc : isBare c = true := List.all_eq_true.mp hbare.2 c (hname ▸ List.mem_cons_self)
    exact ⟨c, rest, hname, .inl hc⟩
  · exact ⟨_, _, rfl, .inr rfl⟩

lemma ne_of_opens {c d : Char} (h : isBare c = true ∨ c = '"') (hbare : isBare d = false)
    (hd : d ≠ '"') : c ≠ d := by
  rcases h with h | rfl
  · exact ne_of_isBare h hbare
  · exact hd.symm

lemma skipSpaces_of_opens {c : Char} (h : isBare c = true ∨ c = '"') (rest : List Char) :
    skipSpaces (c :: rest) = c :: rest := by
  have hblank : c ≠ ' ' := ne_of_opens h (by decide) (by decide)
  have htab : c ≠ '\t' := ne_of_opens h (by decide) (by decide)
  rw [skipSpaces, List.dropWhile_cons_of_neg (by simp [isSpace, hblank, htab])]

/-- What may stand without marks is read up to the first character that may not. -/
lemma readBare_append {name : List Char} (hne : name ≠ []) (hbare : ∀ c ∈ name, isBare c = true)
    (hrest : ∀ c ∈ rest.head?, isBare c = false) : readBare (name ++ rest) = some (name, rest) := by
  have htaken : (name ++ rest).takeWhile isBare = name := by
    rw [List.takeWhile_append_of_pos hbare]
    cases rest with
    | nil => simp
    | cons c rest => simp [hrest c rfl]
  have hleft : (name ++ rest).dropWhile isBare = rest := by
    rw [List.dropWhile_append_of_pos hbare]
    cases rest with
    | nil => rfl
    | cons c rest => simp [hrest c rfl]
  rw [readBare, htaken, hleft, if_neg hne]

/-- A name is read up to where no name goes on. -/
lemma readName_nameText (name : String) (hrest : ∀ c ∈ rest.head?, isBare c = false) :
    readName (skipSpaces (nameText name ++ rest)) = some (name, rest) := by
  obtain ⟨c, tail, hname, hopens⟩ := nameText_eq_cons name
  rw [hname, List.cons_append, skipSpaces_of_opens hopens, ← List.cons_append, ← hname]
  unfold nameText
  split
  · rename_i hbare
    obtain ⟨hne, hall⟩ := hbare
    have hchars := fun c hc => List.all_eq_true.mp hall c hc
    have hunmarked : readLineText (name.toList ++ rest) = none := by
      obtain ⟨c, tail, hcons⟩ := List.exists_cons_of_ne_nil hne
      have hc : isBare c = true := hchars c (hcons ▸ List.mem_cons_self)
      rw [hcons, List.cons_append]
      apply readLineText.eq_3
      · exact fun _ h => ne_of_isBare hc (by decide) (List.cons.inj h).1
      · exact fun _ h => ne_of_isBare hc (by decide) (List.cons.inj h).1
    rw [readName, hunmarked, readBare_append hne hchars hrest]
    simp
  · rw [readName, readLineText_quoted]
    simp

/-! ## Keys -/

lemma toText_cons (group : String) (path : List String) (name : String) :
    Key.toText ⟨group :: path, name⟩ = nameText group ++ '.' :: Key.toText ⟨path, name⟩ := by
  simp [Key.toText]

/-- A key opens like the first of its names. -/
lemma toText_eq_cons (key : Key) :
    ∃ c rest, key.toText = c :: rest ∧ (isBare c = true ∨ c = '"') := by
  obtain ⟨path, name⟩ := key
  cases path with
  | nil => exact nameText_eq_cons name
  | cons group path =>
    obtain ⟨c, rest, hname, hopens⟩ := nameText_eq_cons group
    refine ⟨c, rest ++ '.' :: Key.toText ⟨path, name⟩, ?_, hopens⟩
    rw [toText_cons, hname, List.cons_append]

/-- A key is read up to where no name and no further part follows, blanks before that aside. -/
lemma readKeyWithin_toText (key : Key) {parts : ℕ} (hparts : key.path.length < parts)
    (hrest : ∀ c ∈ rest.head?, isBare c = false) (hdot : (skipSpaces rest).head? ≠ some '.') :
    readKeyWithin parts (key.toText ++ rest) = some (key, skipSpaces rest) := by
  obtain ⟨path, name⟩ := key
  induction path generalizing parts with
  | nil =>
    obtain ⟨parts, rfl⟩ : ∃ n, parts = n + 1 := ⟨parts - 1, by omega⟩
    show readKeyWithin (parts + 1) (nameText name ++ rest) = _
    rw [readKeyWithin, readName_nameText name hrest]
    dsimp only
    split
    · rename_i tail htail
      exact absurd (congrArg List.head? htail) hdot
    · rfl
  | cons group path ih =>
    obtain ⟨parts, rfl⟩ : ∃ n, parts = n + 1 := ⟨parts - 1, by omega⟩
    have hinner := ih (Nat.lt_of_succ_lt_succ hparts)
    have hskip : ∀ tail, skipSpaces ('.' :: tail) = '.' :: tail := fun _ => rfl
    rw [toText_cons, List.append_assoc, List.cons_append, readKeyWithin,
      readName_nameText group (by simp; decide)]
    simp only [hskip, hinner, Option.map_some]

/-- A key with fewer parts than the limit is read. -/
lemma readKey_toText (hkey : key.path.length + 1 < depthLimit)
    (hrest : ∀ c ∈ rest.head?, isBare c = false) (hdot : (skipSpaces rest).head? ≠ some '.') :
    readKey (key.toText ++ rest) = some (key, skipSpaces rest) :=
  readKeyWithin_toText key (by omega) hrest hdot

/-! ## Lines -/

/-- The key of a line has few enough parts to be read. -/
def Line.Fits : Line → Prop
  | blank => True
  | table key | item key | entry key _ => key.path.length + 1 < depthLimit

lemma readHeader_toText (d : Draft) (hkey : key.path.length + 1 < depthLimit)
    (rest : List Char) :
    readHeader d (key.toText ++ ']' :: rest) = (d.take (.table key)).map fun d => (d, rest) := by
  have hread : readKey (key.toText ++ ']' :: rest) = some (key, ']' :: rest) :=
    readKey_toText hkey (by simp; decide) (by simp [skipSpaces, isSpace])
  rw [readHeader, hread]
  simp only [Draft.take, Option.map_map]
  rfl

lemma readItemHeader_toText (d : Draft) (hkey : key.path.length + 1 < depthLimit)
    (rest : List Char) :
    readItemHeader d (key.toText ++ ']' :: ']' :: rest)
      = (d.take (.item key)).map fun d => (d, rest) := by
  have hread : readKey (key.toText ++ ']' :: ']' :: rest) = some (key, ']' :: ']' :: rest) :=
    readKey_toText hkey (by simp; decide) (by simp [skipSpaces, isSpace])
  rw [readItemHeader, hread]
  simp only [Draft.take, Option.map_map]
  rfl

lemma readPair_toText (d : Draft) (hkey : key.path.length + 1 < depthLimit) (value : Scalar)
    (rest : List Char) :
    readPair d (key.toText ++ ' ' :: '=' :: ' ' :: (value.toText ++ '\n' :: rest))
      = (d.take (.entry key value)).map fun d => (d, '\n' :: rest) := by
  have hread : readKey (key.toText ++ ' ' :: '=' :: ' ' :: (value.toText ++ '\n' :: rest))
      = some (key, '=' :: ' ' :: (value.toText ++ '\n' :: rest)) :=
    readKey_toText hkey (by simp; decide) (by simp [skipSpaces, isSpace])
  have hvalue : readValue (skipSpaces (' ' :: (value.toText ++ '\n' :: rest)))
      = some (value.toNode, '\n' :: rest) := readValue_toText value rest
  rw [readPair, readEntry, hread]
  simp only [hvalue, Draft.take, Option.map_some, Option.map_map]
  rfl

/-- A line is read up to its end, and does what it says. -/
theorem readLine_toText (d : Draft) {line : Line} (hline : line.Fits) (rest : List Char) :
    readLine d (line.toText ++ '\n' :: rest) = (d.take line).map fun d => (d, '\n' :: rest) := by
  cases line with
  | blank => rfl
  | table key =>
    have htext : (Line.table key).toText ++ '\n' :: rest
        = '[' :: (key.toText ++ ']' :: '\n' :: rest) := by
      simp [Line.toText]
    have hskip : ∀ text, skipSpaces ('[' :: text) = '[' :: text := fun _ => rfl
    obtain ⟨c, tail, hkey, hopens⟩ := toText_eq_cons key
    -- One bracket only: the key does not open with another one.
    have hc : c ≠ '[' := ne_of_opens hopens (by decide) (by decide)
    rw [htext, ← readHeader_toText d hline, hkey, List.cons_append, readLine, hskip]
    simp [hc]
  | item key =>
    have htext : (Line.item key).toText ++ '\n' :: rest
        = '[' :: '[' :: (key.toText ++ ']' :: ']' :: '\n' :: rest) := by
      simp [Line.toText]
    rw [htext, ← readItemHeader_toText d hline]
    rfl
  | entry key value =>
    have htext : (Line.entry key value).toText ++ '\n' :: rest
        = key.toText ++ ' ' :: '=' :: ' ' :: (value.toText ++ '\n' :: rest) := by
      simp [Line.toText]
    obtain ⟨c, tail, hkey, hopens⟩ := toText_eq_cons key
    have hcomment : c ≠ '#' := ne_of_opens hopens (by decide) (by decide)
    have hend : c ≠ '\n' := ne_of_opens hopens (by decide) (by decide)
    have hreturn : c ≠ '\r' := ne_of_opens hopens (by decide) (by decide)
    have hbracket : c ≠ '[' := ne_of_opens hopens (by decide) (by decide)
    rw [htext, ← readPair_toText d hline, hkey, List.cons_append, readLine,
      skipSpaces_of_opens hopens]
    simp [hcomment, hend, hreturn, hbracket]

/-! ## Texts of lines -/

lemma linesText_cons (line : Line) (lines : List Line) :
    linesText (line :: lines) = line.toText ++ '\n' :: linesText lines := by
  rw [linesText, List.flatMap_cons, List.append_assoc]
  rfl

/-- Lines are read to the end of the text, and do what they say one after the other. -/
theorem readLines_linesText {lines : List Line} (hlines : ∀ line ∈ lines, line.Fits) (d : Draft)
    {fuel : ℕ} (hfuel : (linesText lines).length < fuel) :
    readLines fuel d (linesText lines) = lines.foldlM Draft.take d := by
  induction lines generalizing d fuel with
  | nil =>
    obtain ⟨fuel, rfl⟩ : ∃ n, fuel = n + 1 := ⟨fuel - 1, by omega⟩
    rfl
  | cons line lines ih =>
    obtain ⟨fuel, rfl⟩ : ∃ n, fuel = n + 1 := ⟨fuel - 1, by omega⟩
    obtain ⟨hline, hrest⟩ := List.forall_mem_cons.mp hlines
    rw [linesText_cons] at hfuel ⊢
    have hne : line.toText ++ '\n' :: linesText lines ≠ [] :=
      List.append_ne_nil_of_right_ne_nil _ (List.cons_ne_nil _ _)
    have hleft : (linesText lines).length < fuel := by
      rw [List.length_append, List.length_cons] at hfuel
      omega
    rw [readLines, if_neg hne, readLine_toText d hline, List.foldlM_cons]
    cases d.take line with
    | none => rfl
    | some next => exact ih hrest next hleft

/-- No line opens with a byte order mark. -/
lemma unmarked_linesText (lines : List Line) : unmarked (linesText lines) = linesText lines := by
  cases lines with
  | nil => rfl
  | cons line lines =>
    rw [linesText_cons]
    cases line with
    | blank => rfl
    | table key => rfl
    | item key => rfl
    | entry key value =>
      obtain ⟨c, tail, hkey, hopens⟩ := toText_eq_cons key
      have hc : c ≠ '\uFEFF' := ne_of_opens hopens (by decide) (by decide)
      rw [Line.toText, hkey, List.cons_append, List.cons_append]
      exact unmarked.eq_2 _ fun _ h => hc (List.cons.inj h).1

/-- The text of lines builds the table that the lines build, and is refused if they build none. -/
theorem ofText_linesText {lines : List Line} (hlines : ∀ line ∈ lines, line.Fits) :
    Table.ofText (String.ofList (linesText lines))
      = (lines.foldlM Draft.take ⟨[], []⟩).map Draft.root := by
  rw [Table.ofText, String.toList_ofList, unmarked_linesText]
  exact congrArg _ (readLines_linesText hlines ⟨[], []⟩ (Nat.lt_succ_self _))

/-! ## What entries leave alone -/

/-- What is done on the way through one name leaves the values of all others. -/
lemma Table.get?_reach {way : Way} {change : Table → Option Table} {name other : String}
    {path : List String} {t u : Table} (hreach : t.reach way change (name :: path) = some u)
    (hother : other ≠ name) : u.get? other = t.get? other := by
  rw [Table.get?_alter hreach, if_neg hother]

/-- An entry below a header leaves what stands under other names. -/
lemma get?_take_entry {name other : String} {path : List String} {root : Table} {d : Draft}
    {value : Scalar} (htake : Draft.take ⟨name :: path, root⟩ (.entry key value) = some d)
    (hother : other ≠ name) :
    d.header = name :: path ∧ d.root.get? other = root.get? other := by
  obtain ⟨changed, hput, rfl⟩ := Option.map_eq_some_iff.mp htake
  exact ⟨rfl, Table.get?_reach hput hother⟩

/-- Entries below a header, whatever their keys, leave what stands under other names. -/
theorem get?_foldlM_entries {name other : String} {path : List String} (hother : other ≠ name)
    (entries : List (Key × Scalar)) {root : Table} {d : Draft}
    (hfold : (entries.map fun (key, value) => Line.entry key value).foldlM Draft.take
      ⟨name :: path, root⟩ = some d) :
    d.header = name :: path ∧ d.root.get? other = root.get? other := by
  induction entries generalizing root with
  | nil =>
    obtain rfl := Option.some.inj hfold
    exact ⟨rfl, rfl⟩
  | cons entry entries ih =>
    rw [List.map_cons, List.foldlM_cons] at hfold
    obtain ⟨next, htake, hrest⟩ := Option.bind_eq_some_iff.mp hfold
    obtain ⟨hheader, hget⟩ := get?_take_entry htake hother
    obtain ⟨header, changed⟩ := next
    obtain rfl : header = name :: path := hheader
    obtain ⟨hlast, hgetLast⟩ := ih hrest
    exact ⟨hlast, hgetLast.trans hget⟩

/-! ## Entries at the end of a table -/

/-- Entries of other names are passed over and kept. -/
lemma Table.alter_append {name : String} {change : Option Node → Option Node} {t : Table}
    (ht : name ∉ t.map Prod.fst) (u : Table) :
    Table.alter name change (t ++ u) = (u.alter name change).map (t ++ ·) := by
  induction t with
  | nil => simp
  | cons entry t ih =>
    obtain ⟨key, node⟩ := entry
    obtain ⟨hkey, hrest⟩ := not_or.mp (List.mem_cons.not.mp ht)
    rw [List.cons_append, Table.alter, if_neg (Ne.symm hkey), ih hrest, Option.map_map]
    rfl

/-- An entry of a new name goes to the end. -/
lemma Table.alter_of_notMem {name : String} {change : Option Node → Option Node} {t : Table}
    (ht : name ∉ t.map Prod.fst) :
    t.alter name change = (change none).map fun node => t ++ [(name, node)] := by
  have happend : Table.alter name change (t ++ []) = (Table.alter name change []).map (t ++ ·) :=
    Table.alter_append ht []
  rw [List.append_nil] at happend
  rw [happend, Table.alter, Option.map_map]
  rfl

/-- The table that entries make. -/
def tableOf (entries : List (String × Scalar)) : Table :=
  entries.map fun (name, value) => (name, value.toNode)

/-- A header leads to a table, whatever that holds; `around` puts it where it stands. -/
def LeadsTo (header : List String) (around : Table → Table) : Prop :=
  ∀ change t, (around t).reach .header change header = (change t).map around

variable {header : List String} {around : Table → Table}

lemma leadsTo_nil : LeadsTo [] id := by
  intro change t
  rw [Option.map_id_fun]
  rfl

/-- A header leads on through the last entry of a table, if a header may pass through that. -/
lemma LeadsTo.through (h : LeadsTo header around) {front : Table} {name : String}
    (hfront : name ∉ front.map Prod.fst) {wrapped : Table → Node}
    (hwrapped : ∀ change t, Table.within .header change (some (wrapped t))
      = (change t).map wrapped) :
    LeadsTo (name :: header) fun t => front ++ [(name, wrapped (around t))] := by
  intro change t
  rw [Table.reach, Table.alter_append hfront, Table.alter, if_pos rfl, hwrapped, h change t]
  simp only [Option.map_map]
  rfl

lemma foldlM_cons_of_take {d next : Draft} {line : Line} (h : d.take line = some next)
    (lines : List Line) :
    (line :: lines).foldlM Draft.take d = lines.foldlM Draft.take next := by
  rw [List.foldlM_cons, h]
  rfl

/-- Entries of new names go to the end of the table that the header leads to. -/
theorem LeadsTo.foldlM_plain (h : LeadsTo header around) (entries : List (String × Scalar))
    {t : Table} (hnames : (t.map Prod.fst ++ entries.map Prod.fst).Nodup) :
    (entries.map Line.plain).foldlM Draft.take ⟨header, around t⟩
      = some ⟨header, around (t ++ tableOf entries)⟩ := by
  induction entries generalizing t with
  | nil => simp [tableOf]
  | cons entry entries ih =>
    obtain ⟨name, value⟩ := entry
    have hnew : name ∉ t.map Prod.fst :=
      fun hmem => List.disjoint_of_nodup_append hnames hmem List.mem_cons_self
    have hadd : t.add name value.toNode = some (t ++ [(name, value.toNode)]) :=
      Table.alter_of_notMem hnew
    have htake : Draft.take ⟨header, around t⟩ (.plain (name, value))
        = some ⟨header, around (t ++ [(name, value.toNode)])⟩ := by
      have hput : (around t).putBelow header ⟨[], name⟩ value.toNode
          = (t.add name value.toNode).map around := h _ t
      rw [Line.plain, Draft.take, hput, hadd]
      rfl
    rw [List.map_cons, foldlM_cons_of_take htake, ih, List.append_assoc]
    · rfl
    · rw [List.map_append, List.append_assoc]
      exact hnames

end Admission.Toml
