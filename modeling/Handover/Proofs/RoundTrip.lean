import Handover.Program.Checker
import Handover.Program.Folder
import Handover.Trace.Write
/-!
# RoundTrip — what is written is what is read

The trace of a journal is read back as the same journal, if its numbers fit in 64 bits (`Trace.read_write`).  The writer
and the reader name columns and kinds each for itself, and the names agree (`Trace.columns_eq`, `Trace.kindName_eq`).  A
field that is written has only digits and letters (`Text.Plain`), so its bytes are its characters, no byte in it ends a
field or a row, and a row is cut where it was joined.  Where a row began plays no part, since it is told only of a row
that cannot be read.  A file holds what was written to it last, so a trace survives the file
(`Trace.survives_the_file`).
-/
namespace Handover

/-! ## Numbers -/

namespace Numeral

theorem digit?_digitChar : ∀ d < 10, digit? 10 (digitChar d) = some d := by decide

theorem write_ne_nil (n : Nat) : write n ≠ [] := by
  unfold write
  split <;> simp

theorem exists_digit_of_mem_write (n : Nat) : ∀ c ∈ write n, ∃ d < 10, c = digitChar d := by
  fun_induction write n with
  | case1 n hn =>
    intro c hc
    exact ⟨n, hn, List.mem_singleton.1 hc⟩
  | case2 n hn ih =>
    intro c hc
    rcases List.mem_append.1 hc with hc | hc
    · exact ih c hc
    · exact ⟨n % 10, Nat.mod_lt _ (by decide), List.mem_singleton.1 hc⟩

theorem readDigits_append (base : Nat) : ∀ (l r : List Char) (n m : Nat), readDigits base n l = .ok m →
    readDigits base n (l ++ r) = readDigits base m r
  | [], r, n, m, h => by
    cases h
    rfl
  | c :: l, r, n, m, h => by
    rw [List.cons_append, readDigits]
    rw [readDigits] at h
    split at h
    · cases h
    · split at h
      · rename_i hroom
        simp only [hroom, if_true]
        exact readDigits_append base l r _ m h
      · cases h

theorem readDigits_write {n : Nat} (h : n < Word.limit) : readDigits 10 0 (write n) = .ok n := by
  fun_induction write n with
  | case1 n hn => simp [readDigits, digit?_digitChar n hn, h]
  | case2 n hn ih =>
    have hmod : n % 10 < 10 := Nat.mod_lt _ (by decide)
    have hdiv : n / 10 * 10 + n % 10 = n := by omega
    rw [readDigits_append 10 _ _ _ _ (ih (by omega)), readDigits, digit?_digitChar _ hmod]
    simp only [hdiv, h, if_true, readDigits]

/-- A character that is no digit does not stand in a written number. -/
theorem not_mem_write {c : Char} (hc : ∀ d < 10, c ≠ digitChar d) (n : Nat) : c ∉ write n := by
  intro hmem
  obtain ⟨d, hd, heq⟩ := exists_digit_of_mem_write n c hmem
  exact hc d hd heq

theorem read_write {n : Nat} (h : n < Word.limit) : read 10 (write n) = .ok n := by
  have hsign := not_mem_write (c := '+') (by decide) n
  unfold read
  split
  · rename_i heq
    exact absurd heq (write_ne_nil n)
  · rename_i heq
    exact absurd (heq ▸ List.mem_cons_self) hsign
  · rename_i heq
    exact absurd (heq ▸ List.mem_cons_self) hsign
  · exact readDigits_write h

end Numeral

theorem Trace.readNumber_write {n : Nat} (h : n < Word.limit) : readNumber (Numeral.write n) = .ok n := by
  have hx := Numeral.not_mem_write (c := 'x') (by decide) n
  unfold readNumber
  split
  · rename_i heq
    exact absurd (heq ▸ List.mem_cons_of_mem _ List.mem_cons_self) hx
  · exact Numeral.read_write h

/-! ## Bytes -/

namespace Text

/-- Characters of one byte that mean nothing in a table. -/
def Plain (text : List Char) : Prop := ∀ c ∈ text, c.toNat < 0x80 ∧ c ∉ [',', '"', '\n', '\r']

instance (text : List Char) : Decidable (Plain text) := List.decidableBAll _ text

def Ascii (text : List Char) : Prop := ∀ c ∈ text, c.toNat < 0x80

instance (text : List Char) : Decidable (Ascii text) := List.decidableBAll _ text

theorem toNat_toUInt8 {c : Char} (h : c.toNat < 0x80) : c.toUInt8.toNat = c.toNat := by
  change c.val.toUInt8.toNat = c.val.toNat
  have : c.val.toNat < 0x80 := h
  rw [UInt32.toNat_toUInt8]
  omega

theorem utf8EncodeChar_of_ascii {c : Char} (h : c.toNat < 0x80) : String.utf8EncodeChar c = [c.toUInt8] := by
  apply String.utf8EncodeChar_eq_singleton
  rw [Char.utf8Size_eq_one_iff, UInt32.le_iff_toNat_le]
  exact Nat.le_of_lt_succ h

theorem bytes_of_ascii {text : List Char} (h : Ascii text) :
    Trace.bytes (String.ofList text) = text.map Char.toUInt8 := by
  have hencode : text.flatMap String.utf8EncodeChar = text.map Char.toUInt8 := by
    induction text with
    | nil => rfl
    | cons c text ih =>
      rw [List.flatMap_cons, utf8EncodeChar_of_ascii (h c List.mem_cons_self),
        ih fun x hx => h x (List.mem_cons_of_mem _ hx)]
      rfl
  rw [← hencode]
  simp [Trace.bytes, String.toUTF8, List.utf8Encode]

theorem decodeFrom_of_ascii : ∀ (text : List Char) (valid : Nat), Ascii text →
    Utf8.decodeFrom valid none (text.map Char.toUInt8) = .ok text
  | [], _, _ => rfl
  | c :: text, valid, h => by
    have hc := toNat_toUInt8 (h c List.mem_cons_self)
    have hlt : c.toUInt8 < 0x80 := by
      rw [UInt8.lt_iff_toNat_lt, hc]
      exact h c List.mem_cons_self
    rw [List.map_cons, Utf8.decodeFrom, if_pos hlt,
      decodeFrom_of_ascii text (valid + 1) fun x hx => h x (List.mem_cons_of_mem _ hx), hc, Char.ofNat_toNat]
    rfl

theorem Plain.ascii {text : List Char} (h : Plain text) : Ascii text := fun c hc => (h c hc).1

theorem plain_write (n : Nat) : Plain (Numeral.write n) := by
  have hdigit : ∀ d < 10, (Numeral.digitChar d).toNat < 0x80 ∧ Numeral.digitChar d ∉ [',', '"', '\n', '\r'] := by decide
  intro c hc
  obtain ⟨d, hd, rfl⟩ := Numeral.exists_digit_of_mem_write n c hc
  exact hdigit d hd

end Text

/-! ## Rows -/

namespace Table

/-- Bytes that neither end a field nor open a quote. -/
def Plain (field : List UInt8) : Prop := ∀ b ∈ field, b ≠ comma ∧ b ≠ quote ∧ endsRow b = false

namespace Scan

/-- The reader is not within quotes. -/
def Outside (s : Scan) : Prop := s.mode ≠ .quoted ∧ s.mode ≠ .quoteSeen

theorem feed_plain {s : Scan} (hs : s.Outside) {b : UInt8} (hb : b ≠ comma ∧ b ≠ quote ∧ endsRow b = false) :
    s.feed b = ({ s with here := s.here.after b, field := b :: s.field, mode := .plain }, none) := by
  obtain ⟨hcomma, hquote, hend⟩ := hb
  obtain ⟨mode, done, field, origin, here⟩ := s
  cases mode with
  | rowStart | fieldStart | plain => simp [feed, feedStart, feedPlain, push, hcomma, hquote, hend]
  | quoted => exact absurd rfl hs.1
  | quoteSeen => exact absurd rfl hs.2

theorem feed_comma {s : Scan} (hs : s.Outside) : s.feed comma = ({ s with
    mode := .fieldStart, done := s.field.reverse :: s.done, field := [], here := s.here.after comma }, none) := by
  obtain ⟨mode, done, field, origin, here⟩ := s
  cases mode with
  | rowStart | fieldStart | plain =>
    simp [feed, feedStart, feedPlain, endField, endsRow, comma, quote]
  | quoted => exact absurd rfl hs.1
  | quoteSeen => exact absurd rfl hs.2

/-- A line feed ends a row that has begun. -/
theorem feed_lineFeed {s : Scan} (hs : s.Outside) (hbegun : s.mode ≠ .rowStart) : s.feed 0x0A =
    ({ origin := s.here.after 0x0A, here := s.here.after 0x0A }, some s.row) := by
  obtain ⟨mode, done, field, origin, here⟩ := s
  cases mode with
  | rowStart => exact absurd rfl hbegun
  | fieldStart | plain => simp [feed, feedStart, feedPlain, endsRow, comma, quote, row]
  | quoted => exact absurd rfl hs.1
  | quoteSeen => exact absurd rfl hs.2

/-- A field and the comma after it. -/
theorem rows_field : ∀ (field rest : List UInt8) (s : Scan), s.Outside → Plain field →
    ∃ here, rows s (field ++ comma :: rest) =
      rows { s with mode := .fieldStart, done := (s.field.reverse ++ field) :: s.done, field := [], here := here } rest
  | [], rest, s, hs, _ => by
    refine ⟨s.here.after comma, ?_⟩
    rw [List.nil_append, rows, feed_comma hs, List.append_nil]
  | b :: field, rest, s, hs, hf => by
    obtain ⟨here, hrows⟩ := rows_field field rest { s with here := s.here.after b, field := b :: s.field, mode := .plain }
      ⟨nofun, nofun⟩ fun x hx => hf x (List.mem_cons_of_mem _ hx)
    refine ⟨here, ?_⟩
    rw [List.cons_append, rows, feed_plain hs (hf b List.mem_cons_self)]
    simp only [hrows, List.reverse_cons, List.append_assoc, List.singleton_append]

/-- The last field of a row that has begun, and the line feed after it. -/
theorem rows_last : ∀ (field rest : List UInt8) (s : Scan), s.Outside → Plain field →
    (s.mode = .rowStart → field ≠ []) →
    ∃ here, rows s (field ++ 0x0A :: rest) =
      ⟨((s.field.reverse ++ field) :: s.done).reverse, s.origin⟩ :: rows { origin := here, here := here } rest
  | [], rest, s, hs, _, hne => by
    refine ⟨s.here.after 0x0A, ?_⟩
    rw [List.nil_append, rows, feed_lineFeed hs fun hmode => hne hmode rfl, List.append_nil]
    rfl
  | b :: field, rest, s, hs, hf, _ => by
    obtain ⟨here, hrows⟩ := rows_last field rest { s with here := s.here.after b, field := b :: s.field, mode := .plain }
      ⟨nofun, nofun⟩ (fun x hx => hf x (List.mem_cons_of_mem _ hx)) nofun
    refine ⟨here, ?_⟩
    rw [List.cons_append, rows, feed_plain hs (hf b List.mem_cons_self)]
    simp only [hrows, List.reverse_cons, List.append_assoc, List.singleton_append]

end Scan

/-- A text of one-byte characters has no byte-order mark. -/
theorem rows_of_ascii {text : List Char} (h : Text.Ascii text) :
    rows (text.map Char.toUInt8) = Scan.rows {} (text.map Char.toUInt8) := by
  unfold rows
  split
  · rename_i heq
    have hmem : (0xEF : UInt8) ∈ text.map Char.toUInt8 := by
      rw [heq]
      exact List.mem_cons_self
    obtain ⟨c, hc, hmark⟩ := List.mem_map.1 hmem
    have hnat := congrArg UInt8.toNat hmark
    rw [Text.toNat_toUInt8 (h c hc)] at hnat
    have hlt := h c hc
    rw [hnat] at hlt
    exact absurd hlt (by decide)
  · rfl

end Table

theorem Text.Plain.bytes {text : List Char} (h : Plain text) : Table.Plain (text.map Char.toUInt8) := by
  have hne {c d : Char} (hc : c.toNat < 0x80) (hd : d.toNat < 0x80) (hcd : c ≠ d) : c.toUInt8 ≠ d.toUInt8 := by
    intro heq
    have hnat := congrArg UInt8.toNat heq
    rw [toNat_toUInt8 hc, toNat_toUInt8 hd] at hnat
    exact hcd (by rw [← Char.ofNat_toNat c, hnat, Char.ofNat_toNat])
  intro b hb
  obtain ⟨c, hc, rfl⟩ := List.mem_map.1 hb
  obtain ⟨hascii, hmeans⟩ := h c hc
  simp only [List.mem_cons, List.not_mem_nil, or_false, not_or] at hmeans
  obtain ⟨hcomma, hquote, hfeed, hreturn⟩ := hmeans
  refine ⟨hne hascii (d := ',') (by decide) hcomma, hne hascii (d := '"') (by decide) hquote, ?_⟩
  have hfeed' : c.toUInt8 ≠ 0x0A := hne hascii (d := '\n') (by decide) hfeed
  have hreturn' : c.toUInt8 ≠ 0x0D := hne hascii (d := '\r') (by decide) hreturn
  simp [Table.endsRow, hfeed', hreturn']

namespace Trace

theorem line_cons_cons (f g : List Char) (more : List (List Char)) :
    line (f :: g :: more) = f ++ ',' :: line (g :: more) := by
  simp [line, List.intercalate_cons_cons]

theorem line_singleton (f : List Char) : line [f] = f ++ ['\n'] := by
  simp [line]

/-- **A row is cut where it was joined.** -/
theorem rows_line : ∀ (fields : List (List Char)) (rest : List UInt8) (s : Table.Scan), fields ≠ [] →
    (∀ f ∈ fields, Text.Plain f) → s.Outside → s.field = [] → (s.mode = .rowStart → fields ≠ [[]]) →
    ∃ here, s.rows ((line fields).map Char.toUInt8 ++ rest) =
      ⟨s.done.reverse ++ fields.map (·.map Char.toUInt8), s.origin⟩ ::
        Table.Scan.rows { origin := here, here := here } rest
  | [], _, _, hne, _, _, _, _ => absurd rfl hne
  | [f], rest, s, _, hplain, hs, hfield, hstart => by
    obtain ⟨here, hrows⟩ := Table.Scan.rows_last (f.map Char.toUInt8) rest s hs (hplain f (by simp)).bytes
      fun hmode hnil => hstart hmode (by rw [List.map_eq_nil_iff.1 hnil])
    refine ⟨here, ?_⟩
    rw [line_singleton, List.map_append, List.append_assoc]
    exact hrows.trans (by simp [hfield])
  | f :: g :: more, rest, s, _, hplain, hs, hfield, _ => by
    obtain ⟨here₁, hfirst⟩ := Table.Scan.rows_field (f.map Char.toUInt8) ((line (g :: more)).map Char.toUInt8 ++ rest)
      s hs (hplain f (by simp)).bytes
    obtain ⟨here, hrows⟩ := rows_line (g :: more) rest
      { s with mode := .fieldStart, done := f.map Char.toUInt8 :: s.done, field := [], here := here₁ } nofun
      (fun x hx => hplain x (List.mem_cons_of_mem _ hx)) ⟨nofun, nofun⟩ rfl nofun
    refine ⟨here, ?_⟩
    rw [hfield] at hfirst
    rw [line_cons_cons, List.map_append, List.map_cons, List.append_assoc]
    exact hfirst.trans (hrows.trans (by simp))

theorem rows_lines : ∀ (lines : List (List (List Char))) (here : Table.Position),
    (∀ fields ∈ lines, 1 < fields.length ∧ ∀ f ∈ fields, Text.Plain f) →
    (Table.Scan.rows { origin := here, here := here } ((lines.flatMap line).map Char.toUInt8)).map Table.Row.fields =
      lines.map (·.map (·.map Char.toUInt8))
  | [], _, _ => rfl
  | fields :: lines, here, h => by
    obtain ⟨hlength, hplain⟩ := h fields List.mem_cons_self
    obtain ⟨here', hrows⟩ := rows_line fields ((lines.flatMap line).map Char.toUInt8) { origin := here, here := here }
      (by rintro rfl; simp at hlength) hplain ⟨nofun, nofun⟩ rfl (by rintro - rfl; simp at hlength)
    rw [List.flatMap_cons, List.map_append, hrows, List.map_cons,
      rows_lines lines here' fun x hx => h x (List.mem_cons_of_mem _ hx)]
    rfl

/-! ## Events -/

theorem decodeFields_of_ascii : ∀ (fields : List (List Char)) (index : Nat), (∀ f ∈ fields, Text.Ascii f) →
    decodeFields index (fields.map (·.map Char.toUInt8)) = .ok fields
  | [], _, _ => rfl
  | f :: fields, index, h => by
    rw [List.map_cons, decodeFields, Utf8.decode, Text.decodeFrom_of_ascii f 0 (h f List.mem_cons_self),
      decodeFields_of_ascii fields (index + 1) fun x hx => h x (List.mem_cons_of_mem _ hx)]
    rfl

end Trace

/-- Every number of the event fits in 64 bits. -/
structure Event.InRange (e : Event) : Prop where
  seq : e.seq < Word.limit
  producer : ∀ n ∈ e.producer, n < Word.limit
  sequence : ∀ n ∈ e.sequence, n < Word.limit
  value : ∀ n ∈ e.value, n < Word.limit
  produced : e.produced < Word.limit
  consumed : e.consumed < Word.limit
  occupancy : e.occupancy < Word.limit

instance (e : Event) : Decidable e.InRange :=
  decidable_of_iff (e.seq < Word.limit ∧ (∀ n ∈ e.producer, n < Word.limit) ∧ (∀ n ∈ e.sequence, n < Word.limit) ∧
      (∀ n ∈ e.value, n < Word.limit) ∧ e.produced < Word.limit ∧ e.consumed < Word.limit ∧ e.occupancy < Word.limit)
    ⟨fun ⟨hseq, hproducer, hsequence, hvalue, hproduced, hconsumed, hoccupancy⟩ =>
        ⟨hseq, hproducer, hsequence, hvalue, hproduced, hconsumed, hoccupancy⟩,
      fun h => ⟨h.seq, h.producer, h.sequence, h.value, h.produced, h.consumed, h.occupancy⟩⟩

namespace Trace

theorem number_write (index : Nat) {n : Nat} (h : n < Word.limit) : Draft.number index (Numeral.write n) = .ok n := by
  rw [Draft.number, readNumber_write h]
  rfl

/-- A number that is not there is an empty field, and no number is. -/
theorem number?_write (index : Nat) {x : Option Nat} (h : ∀ n ∈ x, n < Word.limit) :
    Draft.number? index (x.elim [] Numeral.write) = .ok x := by
  cases x with
  | none => rfl
  | some n =>
    rw [Draft.number?, Option.elim, if_neg (by simpa using Numeral.write_ne_nil n), number_write index (h n rfl)]
    rfl

/-- **A kind is written as it is read.** -/
theorem kindName_eq (k : Kind) : kindName k = k.name := by
  cases k <;> rfl

theorem readKind_name (k : Kind) : Draft.readKind (kindName k).toList = .ok k := by
  rw [Draft.readKind, String.ofList_toList, kindName_eq, Kind.ofName?_name]

/-- The text that the writer gives an event under a column of the reader. -/
def fieldOf (e : Event) : Column → List Char
  | .seq => Numeral.write e.seq
  | .kind => (kindName e.kind).toList
  | .producer => e.producer.elim [] Numeral.write
  | .sequence => e.sequence.elim [] Numeral.write
  | .value => e.value.elim [] Numeral.write
  | .produced => Numeral.write e.produced
  | .consumed => Numeral.write e.consumed
  | .occupancy => Numeral.write e.occupancy

/-- **The columns that are written are those that are read**, under the same names and in the same order. -/
theorem columns_eq : columns = Column.all.map fun column => (column.name, (fieldOf · column)) := rfl

theorem putNamed_cons (d : Draft) (index : Nat) (column : Column) (text : List Char) (rest : List (String × List Char)) :
    d.putNamed index ((column.name, text) :: rest) = (do (← d.put column index text).putNamed (index + 1) rest) := by
  rw [Draft.putNamed, Column.ofName?_name]

/-- **The fields of an event make the event.** -/
theorem readFields_fieldOf {e : Event} (h : e.InRange) :
    readFields (some (Column.all.map Column.name)) (Column.all.map (fieldOf e)) = .ok e := by
  rw [readFields, List.zip_map']
  simp only [Column.all, List.map_cons, List.map_nil, putNamed_cons, Draft.put, Draft.has, fieldOf,
    number_write _ h.seq, number_write _ h.produced, number_write _ h.consumed, number_write _ h.occupancy,
    number?_write _ h.producer, number?_write _ h.sequence, number?_write _ h.value, readKind_name]
  rfl

theorem plain_fieldOf (e : Event) (column : Column) : Text.Plain (fieldOf e column) := by
  have hnumber (x : Option Nat) : Text.Plain (x.elim [] Numeral.write) := by
    cases x with
    | none => exact nofun
    | some n => exact Text.plain_write n
  cases column with
  | seq | produced | consumed | occupancy => exact Text.plain_write _
  | kind =>
    change Text.Plain (kindName e.kind).toList
    cases e.kind <;> decide
  | producer | sequence | value => exact hnumber _

theorem plain_name (column : Column) : Text.Plain column.name.toList := by
  cases column <;> decide

theorem readRows_written : ∀ (events : List Event) (rows : List Table.Row) (number : Nat), (∀ e ∈ events, e.InRange) →
    rows.map Table.Row.fields = events.map (fun e => (Column.all.map (fieldOf e)).map (·.map Char.toUInt8)) →
    readRows (some (Column.all.map Column.name)) Column.all.length number rows = .ok events
  | [], rows, number, _, hrows => by
    rw [List.map_eq_nil_iff.1 hrows]
    rfl
  | e :: events, [], number, _, hrows => nomatch hrows
  | e :: events, row :: rows, number, h, hrows => by
    rw [List.map_cons, List.map_cons, List.cons.injEq] at hrows
    have hrow : readRow (some (Column.all.map Column.name)) Column.all.length number row = .ok e := by
      rw [readRow, hrows.1, if_neg (by simp), decodeFields_of_ascii _ _ fun f hf => ?_]
      · simp only [readFields_fieldOf (h e List.mem_cons_self)]
        rfl
      · obtain ⟨column, -, rfl⟩ := List.mem_map.1 hf
        exact (plain_fieldOf e column).ascii
    rw [readRows, hrow, readRows_written events rows (number + 1) (fun x hx => h x (List.mem_cons_of_mem _ hx)) hrows.2]
    rfl

/-- The fields of a trace, row by row. -/
def linesOf (events : List Event) : List (List (List Char)) :=
  Column.all.map (·.name.toList) :: events.map fun e => Column.all.map (fieldOf e)

theorem header_append_rows (events : List Event) : header ++ events.flatMap row = (linesOf events).flatMap line := by
  have hrow : row = fun e => line (Column.all.map (fieldOf e)) := by
    funext e
    rw [row, columns_eq, List.map_map]
    rfl
  rw [linesOf, List.flatMap_cons, List.flatMap_map, header, columns_eq, List.map_map, hrow]
  rfl

theorem plain_linesOf (events : List Event) :
    ∀ fields ∈ linesOf events, 1 < fields.length ∧ ∀ f ∈ fields, Text.Plain f := by
  intro fields hfields
  rcases List.mem_cons.1 hfields with rfl | hfields
  · refine ⟨by simp [Column.all], fun f hf => ?_⟩
    obtain ⟨column, -, rfl⟩ := List.mem_map.1 hf
    exact plain_name column
  · obtain ⟨e, -, rfl⟩ := List.mem_map.1 hfields
    refine ⟨by simp [Column.all], fun f hf => ?_⟩
    obtain ⟨column, -, rfl⟩ := List.mem_map.1 hf
    exact plain_fieldOf e column

theorem ascii_line : ∀ fields : List (List Char), (∀ f ∈ fields, Text.Ascii f) → Text.Ascii (line fields)
  | [], _ => by decide
  | [f], h => by
    rw [line_singleton]
    intro c hc
    rcases List.mem_append.1 hc with hc | hc
    · exact h f List.mem_cons_self c hc
    · rw [List.mem_singleton.1 hc]
      decide
  | f :: g :: more, h => by
    rw [line_cons_cons]
    intro c hc
    rcases List.mem_append.1 hc with hc | hc
    · exact h f List.mem_cons_self c hc
    · rcases List.mem_cons.1 hc with rfl | hc
      · decide
      · exact ascii_line (g :: more) (fun x hx => h x (List.mem_cons_of_mem _ hx)) c hc

theorem columnNames_written {row : Table.Row}
    (h : row.fields = (Column.all.map (·.name.toList)).map (·.map Char.toUInt8)) :
    columnNames row = some (Column.all.map Column.name) := by
  rw [columnNames, h, decodeFields_of_ascii _ _ fun f hf => ?_]
  · simp [Except.toOption, Function.comp_def]
  · obtain ⟨column, -, rfl⟩ := List.mem_map.1 hf
    exact (plain_name column).ascii

/-- **What is written is what is read.** -/
theorem read_write {events : List Event} (h : ∀ e ∈ events, e.InRange) : read (bytes (write events)) = .ok events := by
  cases events with
  | nil => rfl
  | cons e events =>
    have hplain := plain_linesOf (e :: events)
    have hascii : Text.Ascii ((linesOf (e :: events)).flatMap line) := by
      intro c hc
      obtain ⟨fields, hfields, hc⟩ := List.mem_flatMap.1 hc
      exact ascii_line fields (fun f hf => ((hplain fields hfields).2 f hf).ascii) c hc
    have hwrite : write (e :: events) = String.ofList ((linesOf (e :: events)).flatMap line) :=
      congrArg String.ofList (header_append_rows (e :: events))
    have hrows := rows_lines (linesOf (e :: events)) {} hplain
    rw [hwrite, Text.bytes_of_ascii hascii, read, Table.rows_of_ascii hascii]
    split
    · rename_i hnil
      rw [hnil] at hrows
      cases hrows
    · rename_i header rest hcons
      rw [hcons, linesOf, List.map_cons, List.map_cons, List.cons.injEq] at hrows
      obtain ⟨hheader, hrest⟩ := hrows
      rw [columnNames_written hheader, hheader, List.length_map, List.length_map]
      exact readRows_written (e :: events) rest 1 h (hrest.trans (List.map_map ..))

end Trace

/-! ## Files -/

namespace Program.Folder

variable {f : Folder} {path name : String}

theorem followOutside_ne_file : ∀ steps : List String, followOutside steps ≠ .file name
  | [] => nofun
  | step :: steps => by
    unfold followOutside
    split
    · exact followOutside_ne_file steps
    · nofun

theorem follow_eq_file (g : Folder) : ∀ steps : List String, f.follow steps = .file name → g.follow steps = .file name
  | [], h => h
  | step :: steps, h => by
    unfold follow at h ⊢
    by_cases hstay : step = "" ∨ step = "."
    · rw [if_pos hstay] at h ⊢
      exact follow_eq_file g steps h
    rw [if_neg hstay] at h ⊢
    by_cases hup : step = ".."
    · rw [if_pos hup] at h
      exact absurd h (followOutside_ne_file steps)
    rw [if_neg hup] at h ⊢
    by_cases hlast : steps.isEmpty = true
    · rwa [if_pos hlast] at h ⊢
    · -- what is missing on the way depends on the folder, but then the path leads nowhere
      rw [if_neg hlast] at h
      split at h <;> cases h

theorem resolve_eq_file (g : Folder) (h : f.resolve path = .file name) : g.resolve path = .file name := by
  unfold resolve at h ⊢
  repeat' split at h
  · cases h
  · cases h
  · cases h
  · cases h
  · exact absurd h (followOutside_ne_file _)
  · simp_all only [if_false]
    exact follow_eq_file g _ h

/-- **A file holds what was written to it last.** -/
theorem read_write (h : f.resolve path = .file name) (text : String) :
    ∃ f', f.write path text = .ok f' ∧ f'.read path = .ok (Trace.bytes text) := by
  refine ⟨f.put name (Trace.bytes text), ?_, ?_⟩
  · rw [write, h]
    rfl
  · rw [read, resolve_eq_file _ h]
    simp [file?, put]

end Program.Folder

namespace Trace

open Program (Folder)

/-- **A trace survives the file.**  Events of any kind, with any numbers of 64 bits and with any parts of their items
missing, are written to any path that leads to a file, in any folder, and are loaded from there one by one as they were.
So the files of two different lists of events differ. -/
theorem survives_the_file {events : List Event} (h : ∀ e ∈ events, e.InRange) :
    (∀ (f : Folder) (path name : String), f.resolve path = .file name →
      ∃ f', f.write path (write events) = .ok f' ∧ Program.Checker.load path (f'.read path) = .ok events) ∧
    ∀ others : List Event, (∀ e ∈ others, e.InRange) → others ≠ events →
      bytes (write others) ≠ bytes (write events) := by
  refine ⟨fun f path name hfile => ?_, fun others hothers hne hsame => hne ?_⟩
  · obtain ⟨f', hwrite, hread⟩ := Folder.read_write hfile (write events)
    refine ⟨f', hwrite, ?_⟩
    rw [hread, Program.Checker.load, read_write h]
    rfl
  · have hread := read_write hothers
    rw [hsame, read_write h] at hread
    exact (Except.ok.inj hread).symm

/-- Events that no run records, with the largest number and with single parts of items, written over another file. -/
theorem survives_the_file_of_strange_events :
    let last := Word.limit - 1
    let events : List Event :=
      [⟨last, .completed, some last, none, some 0, last, 0, last⟩, ⟨0, .produced, none, some last, none, 10, 100, 9⟩,
        ⟨7, .consumed, none, none, none, 0, 0, 0⟩]
    let f : Folder := { files := [("t", [0xEF, 0x22])] }
    (∀ e ∈ events, e.InRange) ∧ f.resolve "t" = .file "t" ∧
      (∃ f', f.write "t" (write events) = .ok f' ∧ Program.Checker.load "t" (f'.read "t") = .ok events) ∧
      bytes (write []) ≠ bytes (write events) := by
  intro last events f
  have hrange : ∀ e ∈ events, e.InRange := by decide
  have hsplit : "t".splitOn "/" = ["t"] := by
    rw [String.splitOn, if_neg (by decide), String.splitOnAux, if_neg (by decide), if_neg (by decide),
      String.splitOnAux, if_pos (by decide)]
    decide
  have hfile : f.resolve "t" = .file "t" := by
    unfold Folder.resolve
    rw [hsplit, show "t".contains '\x00' = false by simp, show "t".startsWith "/" = false by simp]
    decide
  obtain ⟨hloaded, hdiffer⟩ := survives_the_file hrange
  exact ⟨hrange, hfile, hloaded f "t" "t" hfile, hdiffer [] nofun nofun⟩

end Trace
end Handover
