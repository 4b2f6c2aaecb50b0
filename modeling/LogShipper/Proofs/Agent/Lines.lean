import LogShipper.Agent.Input
import LogShipper.Agent.Line
import LogShipper.Proofs.Text.Splitting
import LogShipper.Proofs.Transport.Packing

/-!
# The lines of an input that is text

The agent cuts octets into lines and reads each line as text of its own.  Where the octets are those
of a text, this comes to the lines of the text, as no octet of another character is that of a line
feed or a carriage return (`Utf8.mem_of_mem_encode`).  A carriage return at the end of a line is
lost, which is blank, so that as many lines are not blank as the text has
(`Agent.countP_inputLines`).

A line that is parsed always has a logger and a severity with names (`Agent.parseLine_named`).
-/

namespace LogShipper

/-! ## Blank texts -/

namespace Text

/-- The number of lines that are not blank; a final line feed makes no difference. -/
theorem countP_lines (t : Text) : t.lines.countP (fun line => !line.isAllBlank) =
    (t.splitOn '\n').countP fun line : Text => !line.isAllBlank := by
  unfold lines
  split
  · rename_i rest hrest
    rw [← List.reverse_reverse (t.splitOn '\n'), hrest, List.reverse_cons, List.countP_append]
    rfl
  · rw [List.reverse_reverse]

end Text

/-! ## Octets of a text -/

namespace Utf8

/-- An octet below 128 is that of the character with its number. -/
theorem toNat_of_mem_encodeChar {b : UInt8} {c : Char} (h : b ∈ encodeChar c)
    (hb : b.toNat < 0x80) : c.toNat = b.toNat := by
  have hvalid : c.toNat < 0xD800 ∨ (0xDFFF < c.toNat ∧ c.toNat < 0x110000) := c.valid
  have hgreat : ∀ m, 0x80 ≤ m → m < 256 → b ≠ .ofNat m := by
    rintro m hm hm' rfl
    rw [toNat_ofNat_of_lt hm'] at hb
    omega
  -- every octet of a longer sequence is at least 128
  unfold encodeChar at h
  dsimp only at h
  split at h
  · rw [List.mem_singleton.1 h, toNat_ofNat_of_lt (by omega)]
  split at h
  · simp only [List.mem_cons, List.not_mem_nil, or_false] at h
    rcases h with h | h
    · exact absurd h (hgreat _ (by omega) (by omega))
    · exact absurd h (hgreat _ (by omega) (by omega))
  split at h
  · simp only [List.mem_cons, List.not_mem_nil, or_false] at h
    rcases h with h | h | h
    · exact absurd h (hgreat _ (by omega) (by omega))
    · exact absurd h (hgreat _ (by omega) (by omega))
    · exact absurd h (hgreat _ (by omega) (by omega))
  · simp only [List.mem_cons, List.not_mem_nil, or_false] at h
    rcases h with h | h | h | h
    · exact absurd h (hgreat _ (by omega) (by omega))
    · exact absurd h (hgreat _ (by omega) (by omega))
    · exact absurd h (hgreat _ (by omega) (by omega))
    · exact absurd h (hgreat _ (by omega) (by omega))

/-- An ASCII character whose octet is among those of a text is in the text. -/
theorem mem_of_mem_encode {c : Char} (hc : c.toNat < 0x80) {t : Text}
    (h : UInt8.ofNat c.toNat ∈ encode t) : c ∈ t := by
  obtain ⟨d, hd, hmem⟩ := List.mem_flatMap.1 h
  have hoctet : (UInt8.ofNat c.toNat).toNat = c.toNat := toNat_ofNat_of_lt (by omega)
  have hsame : d.toNat = c.toNat := by
    rw [toNat_of_mem_encodeChar hmem (by rw [hoctet]; exact hc), hoctet]
  rw [← Char.ofNat_toNat c, ← hsame, Char.ofNat_toNat]
  exact hd

theorem encode_singleton (c : Char) : encode [c] = encodeChar c := List.append_nil _

theorem encodeChar_of_lt {c : Char} (hc : c.toNat < 0x80) :
    encodeChar c = [UInt8.ofNat c.toNat] := if_pos hc

theorem encodeChar_ne_nil (c : Char) : encodeChar c ≠ [] := by
  obtain ⟨b, more, heq, -⟩ := next_encodeChar c []
  rw [heq]
  exact List.cons_ne_nil b more

/-- A text whose octets end with that of an ASCII character ends with it. -/
theorem eq_append_of_encode {c : Char} (hc : c.toNat < 0x80) {t : Text} {front : List UInt8}
    (h : encode t = front ++ [UInt8.ofNat c.toNat]) : ∃ body, t = body ++ [c] ∧ encode body = front := by
  rcases List.eq_nil_or_concat t with rfl | ⟨body, d, rfl⟩
  · cases front <;> cases h
  · rw [List.concat_eq_append, encode_append, encode_singleton] at h
    have hlast : (encodeChar d).getLast? = some (UInt8.ofNat c.toNat) := by
      rw [← List.getLast?_append_of_ne_nil (encode body) (encodeChar_ne_nil d), h,
        List.getLast?_concat]
    have hd : c ∈ [d] := mem_of_mem_encode hc (by
      rw [encode_singleton]
      exact List.mem_of_getLast? hlast)
    obtain rfl := List.mem_singleton.1 hd
    rw [encodeChar_of_lt hc] at h
    exact ⟨body, List.concat_eq_append, List.append_cancel_right h⟩

end Utf8

/-! ## Lines of octets -/

namespace Agent

open Transport

/-- A line without line feed is left as it is. -/
theorem stripLineEnd_of_not_mem {line : List UInt8} (h : lineFeed ∉ line) :
    stripLineEnd line = line := by
  unfold stripLineEnd
  split
  · rename_i rest hrest
    exact absurd (List.mem_reverse.1 (hrest ▸ List.mem_cons_self)) h
  · rename_i rest _ hrest
    exact absurd (List.mem_reverse.1 (hrest ▸ List.mem_cons_self)) h
  · rfl

/-- Without its line feed a line may end with a carriage return, which is taken off as well. -/
theorem stripLineEnd_append_lineFeed (line : List UInt8) :
    stripLineEnd (line ++ [lineFeed]) = line ∨
      ∃ front, line = front ++ [0x0D] ∧ stripLineEnd (line ++ [lineFeed]) = front := by
  unfold stripLineEnd
  rw [List.reverse_append]
  cases hline : line.reverse with
  | nil =>
    rw [List.reverse_eq_nil_iff.1 hline]
    exact .inl rfl
  | cons b rest =>
    obtain rfl : line = rest.reverse ++ [b] := by
      rw [← List.reverse_reverse line, hline, List.reverse_cons]
    by_cases hb : b = 0x0D
    · subst hb
      exact .inr ⟨rest.reverse, rfl, rfl⟩
    · left
      split
      · rename_i rest' heq
        exact absurd (List.cons.inj (List.cons.inj heq).2).1 hb
      · rename_i rest' _ heq
        obtain rfl : b :: rest = rest' := (List.cons.inj heq).2
        exact List.reverse_cons
      · rename_i hother
        exact absurd rfl (hother (b :: rest))

/-- A line of a text is read as text, with as much that is not blank. -/
theorem decode_stripLineEnd (line : Text) :
    ∃ text, Utf8.decode (stripLineEnd (Utf8.encode line ++ [lineFeed])) = .ok text ∧
      text.isAllBlank = line.isAllBlank := by
  rcases stripLineEnd_append_lineFeed (Utf8.encode line) with heq | ⟨front, hfront, heq⟩
  · rw [heq]
    exact ⟨line, Utf8.decode_encode line, rfl⟩
  · have hreturn : ('\r' : Char).toNat < 0x80 := by decide
    obtain ⟨body, rfl, hbody⟩ := Utf8.eq_append_of_encode hreturn hfront
    rw [heq, ← hbody]
    refine ⟨body, Utf8.decode_encode body, ?_⟩
    have hblank : isBlank '\r' = true := by decide
    simp [Text.isAllBlank, hblank]

/-- The octets of a text are read to their end, and as many lines are not blank as the text has. -/
theorem countP_inputLines (t : Text) : ∃ lines, inputLines (Utf8.encode t) = (lines, none) ∧
    lines.countP (fun line => !line.isAllBlank) = t.lines.countP fun line => !line.isAllBlank := by
  rw [Text.countP_lines]
  unfold inputLines
  have hfeed : ('\n' : Char).toNat < 0x80 := by decide
  -- the first line feed ends the first line; the rest is shorter
  induction hn : t.length using Nat.strongRecOn generalizing t with
  | _ n ih =>
    cases hcut : Text.cutAt? (· = '\n') t with
    | none =>
      have hnone : '\n' ∉ t := Text.not_mem_of_cutAt?_eq_none hcut
      have hoctets : lineFeed ∉ Utf8.encode t := fun hmem => hnone (Utf8.mem_of_mem_encode hfeed hmem)
      rw [List.splitOn_eq_singleton hnone]
      cases t with
      | nil => exact ⟨[], rfl, rfl⟩
      | cons c t =>
        have hne : Utf8.encode (c :: t) ≠ [] := by
          rw [Utf8.encode_cons]
          exact List.append_ne_nil_of_left_ne_nil (Utf8.encodeChar_ne_nil c) _
        rw [linesOf_of_not_mem hoctets hne]
        refine ⟨[c :: t], ?_, rfl⟩
        rw [readLines, stripLineEnd_of_not_mem hoctets, Utf8.decode_encode]
        rfl
    | some halves =>
      obtain ⟨first, rest⟩ := halves
      obtain ⟨rfl, hnone⟩ := Text.eq_of_cutAt?_mark hcut
      have hoctets : lineFeed ∉ Utf8.encode first :=
        fun hmem => hnone (Utf8.mem_of_mem_encode hfeed hmem)
      have hencode : Utf8.encode (first ++ '\n' :: rest) =
          Utf8.encode first ++ lineFeed :: Utf8.encode rest := by
        rw [Utf8.encode_append, Utf8.encode_cons]
        rfl
      obtain ⟨text, htext, hblank⟩ := decode_stripLineEnd first
      obtain ⟨lines, hlines, hcount⟩ := ih rest.length (by simp [← hn]; omega) rest rfl
      refine ⟨text :: lines, ?_, ?_⟩
      · rw [hencode, linesOf_append_lineFeed hoctets, readLines, htext, hlines]
      · rw [List.splitOn_append_cons_self, List.splitOn_eq_singleton hnone, List.countP_cons,
          List.singleton_append, List.countP_cons, hcount, hblank]

/-! ## Parsed lines -/

/-- A logger has a name. -/
theorem readLogger_ne_nil (t : Text) : (readLogger t).1 ≠ [] := by
  have hdefault : defaultLogger ≠ [] := by decide
  unfold readLogger
  split
  · split
    · split
      · exact hdefault
      · rename_i hblank
        exact mt Text.trim_eq_nil_iff.1 hblank
    · exact hdefault
  · exact hdefault

/-- Whatever stands on a line, its event has a key and a label. -/
theorem parseLine_named (least : Severity) (line : Text) :
    ((parseLine line).reading least).key ≠ [] ∧ ((parseLine line).reading least).label ≠ [] := by
  constructor
  · exact readLogger_ne_nil _
  · show (parseLine line).level.name ≠ []
    cases (parseLine line).level <;> decide

end Agent

end LogShipper
