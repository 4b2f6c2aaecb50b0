import LogShipper.Transport.Packing
import Mathlib.Data.List.Basic

/-!
# Packing is lossless and minimal

A payload may be cut into packets in many ways.  `IsPacking` says which of them are allowed: nothing
is lost, every cut comes after a line feed, and a packet keeps to the limit unless it is a single
line.  The datagrams of a payload are such a packing (`isPacking_datagrams`), and no other one has
fewer packets (`length_datagrams_le`).

For the second, a packing is seen as a list of groups of lines.  The packer is never ahead by more
than it is worth to have begun a packet: of two packets that are begun, the shorter one leads to at
most as many packets, and the longer one to at most one more (`length_pack_bounds`).  So a group that
fits into one packet costs the packer at most one packet (`length_pack_append_le`), wherever the
packer has cut.
-/

namespace LogShipper.Transport

/-! ## Lines of octets -/

/-- A line feed ends the first line. -/
theorem linesOf_append_lineFeed {line : List UInt8} (h : lineFeed ∉ line) (rest : List UInt8) :
    linesOf (line ++ lineFeed :: rest) = (line ++ [lineFeed]) :: linesOf rest := by
  induction line with
  | nil => rfl
  | cons b line ih =>
    rw [List.mem_cons, not_or] at h
    rw [List.cons_append, linesOf, if_neg (Ne.symm h.1), ih h.2]
    rfl

/-- Without line feed there is one line. -/
theorem linesOf_of_not_mem {line : List UInt8} (h : lineFeed ∉ line) (hne : line ≠ []) :
    linesOf line = [line] := by
  induction line with
  | nil => exact absurd rfl hne
  | cons b line ih =>
    rw [List.mem_cons, not_or] at h
    rw [linesOf, if_neg (Ne.symm h.1)]
    cases line with
    | nil => rfl
    | cons c line => rw [ih h.2 (List.cons_ne_nil c line)]

/-- A line feed at the end of a text cuts it off from what follows. -/
theorem linesOf_append {front : List UInt8} (h : front.getLast? = some lineFeed)
    (rest : List UInt8) : linesOf (front ++ rest) = linesOf front ++ linesOf rest := by
  induction front with
  | nil => cases h
  | cons b front ih =>
    rw [List.cons_append, linesOf, linesOf]
    cases front with
    | nil =>
      rw [List.getLast?_singleton, Option.some.injEq] at h
      rw [if_pos h, if_pos h]
      rfl
    | cons c front =>
      rw [List.getLast?_cons_cons] at h
      rw [ih h]
      split
      · rfl
      · cases hlines : linesOf (c :: front) with
        | nil =>
          have hempty := flatten_linesOf (c :: front)
          rw [hlines] at hempty
          cases hempty
        | cons line lines => rfl

/-! ## Single lines -/

/-- The octets are a single line: there are some, and a line feed comes at most at their end. -/
def IsLine (octets : List UInt8) : Prop := octets ≠ [] ∧ lineFeed ∉ octets.dropLast

instance : DecidablePred IsLine := fun _ => inferInstanceAs (Decidable (_ ∧ _))

theorem IsLine.linesOf_eq {line : List UInt8} (h : IsLine line) : linesOf line = [line] := by
  obtain ⟨hne, hmem⟩ := h
  rcases List.eq_nil_or_concat' line with rfl | ⟨front, b, rfl⟩
  · exact absurd rfl hne
  rw [List.dropLast_concat] at hmem
  by_cases hb : b = lineFeed
  · subst hb
    exact linesOf_append_lineFeed hmem []
  · refine linesOf_of_not_mem ?_ hne
    rw [List.mem_append, List.mem_singleton, not_or]
    exact ⟨hmem, Ne.symm hb⟩

/-- What holds of all entries but the last. -/
theorem forall_mem_dropLast_cons {α : Type} {P : α → Prop} {x : α} {xs : List α} :
    (∀ y ∈ (x :: xs).dropLast, P y) ↔ (xs ≠ [] → P x) ∧ ∀ y ∈ xs.dropLast, P y := by
  cases xs with
  | nil => simp
  | cons y ys => simp

/-- The lines of a payload are single lines. -/
theorem isLine_of_mem_linesOf {payload line : List UInt8} (h : line ∈ linesOf payload) :
    IsLine line := by
  induction payload generalizing line with
  | nil => cases h
  | cons b rest ih =>
    have halone : IsLine [b] := ⟨List.cons_ne_nil b [], List.not_mem_nil⟩
    unfold linesOf at h
    split at h
    · rcases List.mem_cons.1 h with rfl | h
      · exact halone
      · exact ih h
    rename_i hb
    cases hlines : linesOf rest with
    | nil =>
      rw [hlines] at h
      obtain rfl := List.mem_singleton.1 h
      exact halone
    | cons first lines =>
      rw [hlines] at h ih
      rcases List.mem_cons.1 h with rfl | h
      · -- the first line of the rest has one more octet, which is no line feed
        obtain ⟨hne, hmem⟩ := ih (List.mem_cons_self)
        refine ⟨List.cons_ne_nil b first, ?_⟩
        rw [List.dropLast_cons_of_ne_nil hne, List.mem_cons, not_or]
        exact ⟨Ne.symm hb, hmem⟩
      · exact ih (List.mem_cons_of_mem first h)

/-- Each line of a payload but the last has its line feed. -/
theorem getLast?_of_mem_dropLast_linesOf (payload : List UInt8) :
    ∀ line ∈ (linesOf payload).dropLast, line.getLast? = some lineFeed := by
  induction payload with
  | nil => exact List.forall_mem_nil _
  | cons b rest ih =>
    unfold linesOf
    split
    · rename_i hb
      exact forall_mem_dropLast_cons.2 ⟨fun _ => hb ▸ List.getLast?_singleton, ih⟩
    cases hlines : linesOf rest with
    | nil => exact List.forall_mem_nil _
    | cons first lines =>
      rw [hlines, forall_mem_dropLast_cons] at ih
      obtain ⟨hfirst, hlast⟩ := ih
      refine forall_mem_dropLast_cons.2 ⟨fun hmore => ?_, hlast⟩
      have hne : first ≠ [] := (isLine_of_mem_linesOf (hlines ▸ List.mem_cons_self)).1
      rw [List.getLast?_cons_of_ne_nil hne]
      exact hfirst hmore

/-! ## Packings -/

/-- A packet may be sent: it keeps to the limit, or it is a single line. -/
def Fits (limit : Nat) (packet : List UInt8) : Prop := packet.length ≤ limit ∨ IsLine packet

instance (limit : Nat) : DecidablePred (Fits limit) :=
  fun _ => inferInstanceAs (Decidable (_ ∨ _))

/-- A way of cutting a payload into packets. -/
structure IsPacking (payload : List UInt8) (limit : Nat) (packets : List (List UInt8)) : Prop where
  /-- Nothing is lost, added or moved. -/
  flatten_eq : packets.flatten = payload
  ne_nil : ∀ packet ∈ packets, packet ≠ []
  /-- Every cut comes right after a line feed. -/
  cut : ∀ packet ∈ packets.dropLast, packet.getLast? = some lineFeed
  fits : ∀ packet ∈ packets, Fits limit packet

theorem isPacking_singleton {packet : List UInt8} {limit : Nat} (hne : packet ≠ [])
    (hfits : Fits limit packet) : IsPacking packet limit [packet] :=
  ⟨List.flatten_singleton, List.forall_mem_singleton.2 hne, List.forall_mem_nil _,
    List.forall_mem_singleton.2 hfits⟩

/-- A packet that ends with a line feed may come before any packing. -/
theorem IsPacking.cons {packet payload : List UInt8} {limit : Nat} {packets : List (List UInt8)}
    (h : IsPacking payload limit packets) (hne : packet ≠ []) (hfits : Fits limit packet)
    (hcut : packet.getLast? = some lineFeed) :
    IsPacking (packet ++ payload) limit (packet :: packets) where
  flatten_eq := by rw [List.flatten_cons, h.flatten_eq]
  ne_nil := List.forall_mem_cons.2 ⟨hne, h.ne_nil⟩
  cut := forall_mem_dropLast_cons.2 ⟨fun _ => hcut, h.cut⟩
  fits := List.forall_mem_cons.2 ⟨hfits, h.fits⟩

section Packer

variable {limit : Nat} {packet line : List UInt8} {lines : List (List UInt8)}

theorem pack_nil_cons : pack limit [] (line :: lines) = pack limit line lines := rfl

theorem pack_cons (h : packet ≠ []) : pack limit packet (line :: lines) =
    if limit < packet.length + line.length then packet :: pack limit line lines
    else pack limit (packet ++ line) lines := by
  cases packet with
  | nil => exact absurd rfl h
  | cons b packet => simp [pack]

theorem pack_nil (h : packet ≠ []) : pack limit packet [] = [packet] := if_neg (by simpa using h)

/-- A packet was begun and some lines of a payload are left. -/
structure Begun (limit : Nat) (packet : List UInt8) (lines : List (List UInt8)) : Prop where
  ne_nil : packet ≠ []
  fits : Fits limit packet
  /-- There is a cut after the packet if anything is left. -/
  cut : lines ≠ [] → packet.getLast? = some lineFeed
  isLine : ∀ line ∈ lines, IsLine line
  cuts : ∀ line ∈ lines.dropLast, line.getLast? = some lineFeed

/-- The next line goes into a packet of its own. -/
theorem Begun.next (h : Begun limit packet (line :: lines)) : Begun limit line lines := by
  obtain ⟨hcut, hcuts⟩ := forall_mem_dropLast_cons.1 h.cuts
  obtain ⟨hline, hlines⟩ := List.forall_mem_cons.1 h.isLine
  exact ⟨hline.1, .inr hline, hcut, hlines, hcuts⟩

/-- The next line joins the packet. -/
theorem Begun.join (h : Begun limit packet (line :: lines))
    (hroom : packet.length + line.length ≤ limit) : Begun limit (packet ++ line) lines := by
  have hnext := h.next
  refine ⟨List.append_ne_nil_of_left_ne_nil h.ne_nil line, .inl ?_, fun hmore => ?_,
    hnext.isLine, hnext.cuts⟩
  · rw [List.length_append]
    exact hroom
  · rw [List.getLast?_append_of_ne_nil packet hnext.ne_nil]
    exact hnext.cut hmore

/-- From a packet on, the packer makes a packing. -/
theorem Begun.isPacking (h : Begun limit packet lines) :
    IsPacking (packet ++ lines.flatten) limit (pack limit packet lines) := by
  induction lines generalizing packet with
  | nil =>
    rw [pack_nil h.ne_nil, List.flatten_nil, List.append_nil]
    exact isPacking_singleton h.ne_nil h.fits
  | cons line lines ih =>
    rw [pack_cons h.ne_nil, List.flatten_cons]
    split
    · exact (ih h.next).cons h.ne_nil h.fits (h.cut (List.cons_ne_nil line lines))
    · rename_i hroom
      rw [← List.append_assoc]
      exact ih (h.join (Nat.not_lt.1 hroom))

end Packer

/-- **Datagrams are a packing.**  Whatever the payload and the limit, no datagram is empty, together
they are the payload, every cut comes right after a line feed, and each datagram keeps to the limit
or is a single line. -/
theorem isPacking_datagrams (payload : List UInt8) (limit : Nat) :
    IsPacking payload limit (datagrams payload limit) := by
  unfold datagrams
  cases hlines : linesOf payload with
  | nil =>
    have hempty := flatten_linesOf payload
    rw [hlines] at hempty
    exact ⟨hempty, List.forall_mem_nil _, List.forall_mem_nil _, List.forall_mem_nil _⟩
  | cons line lines =>
    have hcuts := getLast?_of_mem_dropLast_linesOf payload
    have hisLine : ∀ line ∈ linesOf payload, IsLine line := fun _ => isLine_of_mem_linesOf
    rw [hlines, forall_mem_dropLast_cons] at hcuts
    rw [hlines, List.forall_mem_cons] at hisLine
    have hbegun : Begun limit line lines :=
      ⟨hisLine.1.1, .inr hisLine.1, hcuts.1, hisLine.2, hcuts.2⟩
    rw [pack_nil_cons, ← flatten_linesOf payload, hlines, List.flatten_cons]
    exact hbegun.isPacking

/-! ## No packing has fewer packets -/

/-- A packing is a list of groups of lines. -/
theorem IsPacking.linesOf_eq {payload : List UInt8} {limit : Nat} {packets : List (List UInt8)}
    (h : IsPacking payload limit packets) : linesOf payload = packets.flatMap linesOf := by
  rw [← h.flatten_eq]
  have hcut := h.cut
  clear h
  induction packets with
  | nil => rfl
  | cons packet packets ih =>
    rw [forall_mem_dropLast_cons] at hcut
    rw [List.flatten_cons, List.flatMap_cons, ← ih hcut.2]
    cases packets with
    | nil => exact (congrArg linesOf (List.append_nil _)).trans (List.append_nil _).symm
    | cons next packets => exact linesOf_append (hcut.1 (List.cons_ne_nil next packets)) _

section Counting

variable {limit : Nat} {packet other line : List UInt8} {lines group rest : List (List UInt8)}

/-- Of two packets that are begun, the longer one leads to at least as many packets, and to at most
one more. -/
theorem length_pack_bounds (hlines : ∀ line ∈ lines, line ≠ []) (hpacket : packet ≠ [])
    (hother : other ≠ []) (hle : packet.length ≤ other.length) :
    (pack limit packet lines).length ≤ (pack limit other lines).length ∧
      (pack limit other lines).length ≤ (pack limit packet lines).length + 1 := by
  induction lines generalizing packet other with
  | nil =>
    rw [pack_nil hpacket, pack_nil hother]
    exact ⟨Nat.le_refl 1, Nat.le_succ 1⟩
  | cons line lines ih =>
    obtain ⟨hline, hrest⟩ := List.forall_mem_cons.1 hlines
    have hjoined : packet ++ line ≠ [] := List.append_ne_nil_of_left_ne_nil hpacket line
    have hjoined' : other ++ line ≠ [] := List.append_ne_nil_of_left_ne_nil hother line
    rw [pack_cons hpacket, pack_cons hother]
    by_cases hfull : limit < packet.length + line.length
    · -- neither has room for the line
      rw [if_pos hfull, if_pos (by omega)]
      exact ⟨Nat.le_refl _, Nat.le_succ _⟩
    rw [if_neg hfull]
    by_cases hfull' : limit < other.length + line.length
    · -- only the shorter one has room: it is longer now than the packet that the other one begins
      rw [if_pos hfull', List.length_cons]
      have hbounds := ih hrest hline hjoined (by rw [List.length_append]; omega)
      exact ⟨hbounds.2, Nat.succ_le_succ hbounds.1⟩
    · rw [if_neg hfull']
      exact ih hrest hjoined hjoined' (by rw [List.length_append, List.length_append]; omega)

/-- To have begun a packet costs at most one packet. -/
theorem length_pack_le (hlines : ∀ line ∈ lines, line ≠ []) (hpacket : packet ≠ []) :
    (pack limit packet lines).length ≤ (pack limit [] lines).length + 1 := by
  cases lines with
  | nil =>
    rw [pack_nil hpacket]
    exact Nat.le_add_left 1 _
  | cons line lines =>
    obtain ⟨hline, hrest⟩ := List.forall_mem_cons.1 hlines
    rw [pack_nil_cons, pack_cons hpacket]
    split
    · exact Nat.le_refl _
    · exact (length_pack_bounds hrest hline (List.append_ne_nil_of_left_ne_nil hpacket line)
        (by rw [List.length_append]; omega)).2

/-- Lines for which there is room go into the packet. -/
theorem pack_append (hroom : packet.length + group.flatten.length ≤ limit) :
    pack limit packet (group ++ rest) = pack limit (packet ++ group.flatten) rest := by
  induction group generalizing packet with
  | nil => rw [List.flatten_nil, List.append_nil, List.nil_append]
  | cons line group ih =>
    rw [List.flatten_cons, List.length_append] at hroom
    have hjoined : pack limit packet (line :: (group ++ rest)) =
        pack limit (packet ++ line) (group ++ rest) := by
      cases packet with
      | nil => rfl
      | cons b packet => exact (pack_cons (List.cons_ne_nil b packet)).trans (if_neg (by omega))
    rw [List.cons_append, hjoined, ih (by rw [List.length_append]; omega), List.flatten_cons,
      List.append_assoc]

/-- The lines of a packet that may be sent cost at most one packet. -/
theorem length_pack_append_le (hne : packet ≠ []) (hfits : Fits limit packet)
    (hrest : ∀ line ∈ rest, line ≠ []) :
    (pack limit [] (linesOf packet ++ rest)).length ≤ (pack limit [] rest).length + 1 := by
  rcases hfits with hroom | hline
  · rw [pack_append (by rwa [List.length_nil, flatten_linesOf, Nat.zero_add]), flatten_linesOf,
      List.nil_append]
    exact length_pack_le hrest hne
  · rw [hline.linesOf_eq]
    exact length_pack_le hrest hne

end Counting

/-- **Datagrams are as few as can be.**  However a payload is cut right after line feeds into packets
that are not empty, each of which keeps to the limit or is a single line, there are at least as many
packets as there are datagrams. -/
theorem length_datagrams_le {payload : List UInt8} {limit : Nat} {packets : List (List UInt8)}
    (h : IsPacking payload limit packets) :
    (datagrams payload limit).length ≤ packets.length := by
  unfold datagrams
  rw [h.linesOf_eq]
  have hne := h.ne_nil
  have hfits := h.fits
  clear h
  induction packets with
  | nil => exact Nat.le_refl 0
  | cons packet packets ih =>
    rw [List.forall_mem_cons] at hne hfits
    have hrest : ∀ line ∈ packets.flatMap linesOf, line ≠ [] := by
      intro line hline
      obtain ⟨other, -, hline⟩ := List.mem_flatMap.1 hline
      exact (isLine_of_mem_linesOf hline).1
    rw [List.flatMap_cons, List.length_cons]
    exact Nat.le_trans (length_pack_append_le hne.1 hfits.1 hrest)
      (Nat.succ_le_succ (ih hne.2 hfits.2))

/-- A packing that sends each of four lines alone, of which one is longer than the limit.  Three
datagrams are enough. -/
theorem length_datagrams_le_of_four_lines :
    let long : List UInt8 := [99, 99, 99, 99, 99, lineFeed]
    let packets : List (List UInt8) := [[97, lineFeed], [98, lineFeed], long, [100]]
    IsPacking packets.flatten 4 packets ∧ (datagrams packets.flatten 4).length = 3 ∧
      (datagrams packets.flatten 4).length ≤ packets.length := by
  intro long packets
  have h : IsPacking packets.flatten 4 packets := ⟨rfl, by decide, by decide, by decide⟩
  exact ⟨h, by decide, length_datagrams_le h⟩

end LogShipper.Transport
