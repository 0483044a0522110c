import Libpict.StringReaders

/-! # Writing a string and reading it back

Each of the three writers has its reader. The wire is a buffer with some previous contents,
the destination an array of the caller.
-/

namespace Libpict

open Bytes CInt

/-- What is on the wire, as a memory of its own. -/
def wire (buf : Buffer) : Reader.Memory UInt8 Halt := Reader.only .undefined (buf.slice 0 buf.size)

/-- `ptp_read_string` yields what `ptp_write_string` has written, and both count the same bytes. -/
def CountedAgrees {n : Nat} (buf : Buffer) (string : Vector UInt8 n) (s : List UInt8) : Prop :=
  ∃ (written : Nat) (buf' : Buffer) (string' : Vector UInt8 n),
    ptpWriteString buf 0 s = .ok (written, buf') ∧
    (ptpReadString 0 string n).run (wire buf') = .ok ((written : Int), string') ∧
    Slots.Holds string' s

/-- `ptp_write_string` refuses, or its first byte is the number of the units behind it. -/
def CountHonest (buf : Buffer) (s : List UInt8) : Prop :=
  ∀ written buf', ptpWriteString buf 0 s = .ok (written, buf') →
    written = 1 + 2 * (buf'.byte 0).toNat

/-- The same for UTF-8. -/
def Utf8Agrees {n : Nat} (fuel : Nat) (buf : Buffer) (string : Vector UInt8 n) (s : List UInt8) :
    Prop :=
  ∃ (written : Nat) (buf' : Buffer) (string' : Vector UInt8 n),
    ptpWriteUtf8String buf 0 s = .ok (written, buf') ∧
    (ptpReadUtf8String fuel 0 string n).run (wire buf') = .ok ((written : Int), string') ∧
    Slots.Holds string' s

/-- `ptp_read_unicode_string` with a limit yields what `ptp_write_unicode_string` has written. -/
def UnicodeAgrees {n : Nat} (fuel : Nat) (buf : Buffer) (string : Vector UInt8 n) (limit : Nat)
    (s : List UInt8) : Prop :=
  ∃ (written : Nat) (buf' : Buffer) (result : Int) (string' : Vector UInt8 n),
    writeUnicodeString buf 0 s = .ok (written, buf') ∧
    (ptpReadUnicodeString fuel string 0 limit).run (wire buf') = .ok (result, string') ∧
    Slots.Holds string' s

/-! ## What the writers leave on the wire -/

section Wire

variable {buf : Buffer} {s : List UInt8}

theorem storeBytes_of_room {of : Nat} {bytes : List UInt8} (hroom : of + bytes.length ≤ buf.size) :
    storeBytes buf of bytes = .ok (buf.store of bytes) := if_pos hroom

/-- Some bytes stored to the beginning of the wire are shown by it. -/
theorem wire_shows {bytes : List UInt8} (hroom : bytes.length ≤ buf.size) :
    Reader.Shows (wire (buf.store 0 bytes)) 0 bytes := by
  obtain ⟨more, hmore⟩ := Nat.exists_eq_add_of_le hroom
  have hslice : (buf.store 0 bytes).slice 0 (buf.store 0 bytes).size =
      bytes ++ (buf.store 0 bytes).slice bytes.length more := by
    rw [Buffer.store_size, hmore, Buffer.slice_add, Buffer.store_slice_self, Nat.zero_add]
  have hwhole := Reader.only_shows Halt.undefined (bytes ++ (buf.store 0 bytes).slice bytes.length more)
  intro offset size hle
  rw [wire, hslice, hwhole offset size (by rw [List.length_append]; omega),
    List.drop_append_of_le_length (by omega), List.take_append_of_le_length (by simp; omega)]

/-- The units that `ptp_write_string` writes for a string. -/
def stringUnits (s : List UInt8) : List UInt16 :=
  if s = [] then [] else s.map UInt8.toUInt16 ++ [0]

theorem stringUnits_length (hne : s ≠ []) : (stringUnits s).length = s.length + 1 := by
  simp [stringUnits, hne]

theorem leBytes_toUInt16 (char : UInt8) : leBytes 2 char.toUInt16.toNat = [char, 0] := by
  have hlt := char.toNat_lt
  rw [UInt8.toNat_toUInt16, leBytes, leBytes, leBytes, UInt8.ofNat_toNat,
    Nat.div_eq_of_lt (by omega)]
  rfl

theorem flatMap_chars (s : List UInt8) :
    ((s.map UInt8.toUInt16).flatMap fun unit => leBytes 2 unit.toNat) =
      s.flatMap fun char => [char, 0] := by
  rw [List.flatMap_map]
  congr 1
  funext char
  exact leBytes_toUInt16 char

/-- What `ptp_write_string` writes is a counted string, but for the count. -/
theorem stringBytes_eq (s : List UInt8) : stringBytes s = wireString (stringUnits s) := by
  by_cases hempty : s = []
  · subst hempty
    rfl
  · rw [stringBytes, if_neg (fun h => hempty (List.eq_nil_of_length_eq_zero h)), wireString,
      stringUnits_length hempty, stringUnits, if_neg hempty, List.flatMap_append, flatMap_chars,
      List.append_assoc]
    rfl

/-- The characters of a string without control characters are stored as they are. -/
theorem storedChars_toUInt16 (hascii : ∀ char ∈ s, 32 ≤ char ∧ char ≤ 126) :
    storedChars ((s.map UInt8.toUInt16).map UInt16.toNat) = s := by
  rw [storedChars, List.map_map, List.map_map]
  conv_rhs => rw [← List.map_id s]
  apply List.map_congr_left
  intro char hchar
  obtain ⟨hlow, hhigh⟩ := hascii char hchar
  have hlow' : 32 ≤ char.toNat := UInt8.le_iff_toNat_le.mp hlow
  have hhigh' : char.toNat ≤ 126 := UInt8.le_iff_toNat_le.mp hhigh
  have hprintable : printableChar char.toNat = char.toNat := by
    unfold printableChar
    rw [if_neg (by omega), if_neg (by omega)]
  simp [hprintable]

end Wire

section Agreement

variable {n : Nat} {buf : Buffer} {s : List UInt8} (hascii : ∀ char ∈ s, 32 ≤ char ∧ char ≤ 126)

include hascii in
theorem zero_not_mem_of_ascii : 0 ∉ s := fun hzero => absurd (hascii 0 hzero).1 (by decide)

theorem stringBytes_length (hne : s ≠ []) : (stringBytes s).length = 2 * s.length + 3 := by
  rw [stringBytes_eq, wireString_length, stringUnits_length hne]
  ring

include hascii in
/-- One slot more than the string and its zero need is enough for `ptp_read_string`. -/
theorem countedAgrees_iff (hle : s.length ≤ 254) (hroom : 2 * s.length + 3 ≤ buf.size)
    (hn : s.length + 1 ≤ n) (htwo : 2 ≤ n) (string : Vector UInt8 n) :
    CountedAgrees buf string s ↔ s = [] ∨ s.length + 2 ≤ n := by
  have hstore : storeBytes buf 0 (stringBytes s) = .ok (buf.store 0 (stringBytes s)) := by
    apply storeBytes_of_room
    by_cases hempty : s = []
    · subst hempty
      exact le_trans (by decide) hroom
    · rw [stringBytes_length hempty]
      omega
  have hwrite : ptpWriteString buf 0 s =
      .ok ((stringBytes s).length, buf.store 0 (stringBytes s)) := by
    rw [ptpWriteString, hstore]
    rfl
  have hagrees : CountedAgrees buf string s ↔ ∃ string',
      (ptpReadString 0 string n).run (wire (buf.store 0 (stringBytes s))) =
        .ok (((stringBytes s).length : Int), string') ∧ Slots.Holds string' s := by
    constructor
    · rintro ⟨written, buf', string', heq, hrun, hholds⟩
      rw [hwrite] at heq
      obtain ⟨rfl, rfl⟩ := Prod.mk.inj (Except.ok.inj heq)
      exact ⟨string', hrun, hholds⟩
    · rintro ⟨string', hrun, hholds⟩
      exact ⟨_, _, string', hwrite, hrun, hholds⟩
  have hlength : (stringUnits s).length ≤ 255 := by
    by_cases hempty : s = []
    · simp [hempty, stringUnits]
    · rw [stringUnits_length hempty]
      omega
  have hshows : Reader.Shows (wire (buf.store 0 (stringBytes s))) 0 (wireString (stringUnits s)) := by
    rw [← stringBytes_eq]
    apply wire_shows
    by_contra hshort
    rw [storeBytes, if_neg (by omega)] at hstore
    cases hstore
  rw [hagrees, ptpReadString_run htwo le_rfl string hlength hshows]
  by_cases hempty : s = []
  · subst hempty
    have hholds : Slots.Holds (Slots.put string 0 (([] : List UInt8) ++ 0 :: [])) [] :=
      (Slots.holds_put_zero_iff [] rfl (by simp; omega)).mpr rfl
    have hstored : storedString (((stringUnits []).take (n - 1)).map UInt16.toNat) = [] ++ 0 :: [] := by
      simp [stringUnits, storedString, storedChars]
    rw [hstored]
    exact iff_of_true ⟨_, rfl, hholds⟩ (.inl rfl)
  rw [or_iff_right hempty, stringUnits_length hempty, stringBytes_length hempty]
  constructor
  · rintro ⟨string', heq, _⟩
    have hcount := (Prod.mk.inj (Except.ok.inj heq)).1
    omega
  · intro hroom'
    have htake : (stringUnits s).take (n - 1) = stringUnits s :=
      List.take_of_length_le (by rw [stringUnits_length hempty]; omega)
    have hunits : stringUnits s = s.map UInt8.toUInt16 ++ 0 :: [] := if_neg hempty
    obtain ⟨rest, hstored, hrest⟩ := storedString_of_zero (s.map UInt8.toUInt16) []
    rw [htake, hunits, hstored, storedChars_toUInt16 hascii, Nat.min_eq_left (by omega)]
    simp only [List.length_nil] at hrest
    refine ⟨Slots.put string 0 (s ++ 0 :: rest), ?_,
      (Slots.holds_put_zero_iff rest rfl (by omega)).mpr rfl⟩
    push_cast
    ring_nf

/-- The count is one byte. -/
theorem countHonest_iff (hroom : 2 * s.length + 3 ≤ buf.size) :
    CountHonest buf s ↔ s.length ≤ 254 := by
  by_cases hempty : s = []
  · subst hempty
    refine iff_of_true (fun written buf' heq => ?_) (by simp)
    rw [ptpWriteString, storeBytes_of_room (le_trans (by decide) hroom)] at heq
    obtain ⟨rfl, rfl⟩ := Prod.mk.inj (Except.ok.inj heq)
    rfl
  · have hstore : storeBytes buf 0 (stringBytes s) = .ok (buf.store 0 (stringBytes s)) :=
      storeBytes_of_room (by rw [stringBytes_length hempty]; omega)
    have hfirst : ((buf.store 0 (stringBytes s)).byte 0).toNat = (s.length + 1) % 256 := by
      simp [Buffer.store, stringBytes, hempty, leBytes]
    rw [CountHonest, ptpWriteString, hstore]
    constructor
    · intro hcounts
      have hcount := hcounts _ _ rfl
      rw [hfirst, stringBytes_length hempty] at hcount
      omega
    · rintro hle written buf' heq
      obtain ⟨rfl, rfl⟩ := Prod.mk.inj (Except.ok.inj heq)
      rw [hfirst, stringBytes_length hempty]
      omega

include hascii in
theorem utf8Agrees (hroom : s.length + 1 ≤ buf.size) (hn : s.length + 1 ≤ n) {fuel : Nat}
    (hfuel : n < fuel) (string : Vector UInt8 n) : Utf8Agrees fuel buf string s := by
  have hlength : (s ++ [0]).length ≤ buf.size := by simpa using hroom
  have hstore : storeBytes buf 0 (s ++ [0]) = .ok (buf.store 0 (s ++ [0])) :=
    storeBytes_of_room (by rw [Nat.zero_add]; exact hlength)
  have hwrite : ptpWriteUtf8String buf 0 s = .ok (s.length + 1, buf.store 0 (s ++ [0])) := by
    rw [ptpWriteUtf8String, hstore]
    rfl
  refine ⟨_, _, _, hwrite, ptpReadUtf8String_zero string (wire_shows hlength) rfl
    (zero_not_mem_of_ascii hascii) hfuel le_rfl (by omega), ?_⟩
  exact (Slots.holds_put_zero_iff [] rfl (by simpa using hn)).mpr rfl

/-! ### UTF-16 up to a zero -/

/-- Where a run of the loop of `ptp_read_unicode_string` has ended. -/
theorem readUnicode_inv {dat : Int} {bytes : List UInt8} {max fuel j : Nat} {result : Int}
    {buffer buffer' : Vector UInt8 n} (hj : 2 * j < max)
    (hview : (readUnicode dat max fuel (2 * j) buffer).view dat bytes =
      some (.ok (result, buffer'))) :
    ∃ chars, 0 ∉ chars ∧ j + chars.length < n ∧
      (∀ index (hindex : index < chars.length),
        bytes[2 * (j + index)]? = some chars[index]) ∧
      buffer' = Slots.put buffer j (chars ++ [0]) ∧
      (bytes[2 * (j + chars.length)]? = some 0 ∧ 2 * (j + chars.length) < max ∨
        max ≤ 2 * (j + chars.length) ∧ 2 * (j + chars.length) < max + 2) := by
  induction fuel generalizing j buffer with
  | zero => cases hview
  | succ fuel ih =>
      rw [readUnicode] at hview
      have hhalf : 2 * j / 2 = j := by omega
      by_cases hlt : 2 * j < bytes.length
      · have hbyte : bytes[2 * j]? = some bytes[2 * j] := List.getElem?_eq_getElem hlt
        rw [readByte_bind_view hbyte, hhalf] at hview
        split at hview
        next hnul =>
          have hzero : bytes[2 * j] = 0 := UInt8.toNat_inj.mp hnul
          by_cases hslot : j < n
          · rw [storeAt_of_lt hslot] at hview
            obtain ⟨_, rfl⟩ := Prod.mk.inj (Except.ok.inj (Option.some.inj hview))
            exact ⟨[], by simp, hslot, by simp, rfl, .inl ⟨hzero ▸ hbyte, hj⟩⟩
          · rw [storeAt, dif_neg hslot] at hview
            cases hview
        next hchar =>
          have hne : bytes[2 * j] ≠ 0 := fun h => hchar (congrArg UInt8.toNat h)
          rw [UInt8.ofNat_toNat] at hview
          by_cases hslot : j < n
          · rw [storeAt_of_lt hslot, Reader.done_bind] at hview
            split at hview
            next hlimit =>
              by_cases hnext : j + 1 < n
              · rw [storeAt_of_lt hnext] at hview
                obtain ⟨_, rfl⟩ := Prod.mk.inj (Except.ok.inj (Option.some.inj hview))
                refine ⟨[bytes[2 * j]], by simpa using hne.symm, hnext, ?_,
                  (Slots.put_append buffer [bytes[2 * j]] [0] hnext.le).symm, .inr ⟨?_, ?_⟩⟩
                · intro index hindex
                  obtain rfl : index = 0 := by simpa using hindex
                  exact hbyte
                · simp only [List.length_singleton]
                  omega
                · simp only [List.length_singleton]
                  omega
              · rw [storeAt, dif_neg hnext] at hview
                cases hview
            next hlimit =>
              obtain ⟨chars, hzero, hroom, hchars, rfl, hend⟩ := ih (j := j + 1) (by omega) hview
              have hcount : j + (chars.length + 1) = j + 1 + chars.length := by ring
              refine ⟨bytes[2 * j] :: chars, by simpa using ⟨hne.symm, hzero⟩, ?_, ?_, ?_, ?_⟩
              · rw [List.length_cons, hcount]
                exact hroom
              · intro index hindex
                cases index with
                | zero => exact hbyte
                | succ index =>
                    rw [List.getElem_cons_succ, show j + (index + 1) = j + 1 + index by ring]
                    exact hchars index (by simpa using hindex)
              · exact (Slots.put_append buffer [bytes[2 * j]] (chars ++ [0]) hslot).symm
              · rw [List.length_cons, hcount]
                exact hend
          · rw [storeAt, dif_neg hslot] at hview
            cases hview
      · rw [readLe_bind_view rfl, if_neg (by omega)] at hview
        cases hview

/-- The wire that `ptp_write_unicode_string` leaves: the characters, and behind them what was
there before. -/
theorem writeUnicodeString_wire (hroom : 2 * s.length + 2 ≤ buf.size) :
    ∃ buf', writeUnicodeString buf 0 s = .ok (s.length, buf') ∧ buf'.size = buf.size ∧
      (∀ index (hindex : index < s.length), buf'.byte (2 * index) = s[index]) ∧
      buf'.byte (2 * s.length) = buf.byte (2 * s.length) := by
  have hlength : (s.flatMap fun char => [char, 0]).length = 2 * s.length := by
    simp [List.length_flatMap, Nat.mul_comm]
  have hpairs : ∀ (t : List UInt8) index (hindex : index < t.length),
      (t.flatMap fun char => [char, 0]).getD (2 * index) 0 = t[index] := by
    intro t
    induction t with
    | nil =>
        intro index hindex
        simp at hindex
    | cons char t ih =>
        intro index hindex
        cases index with
        | zero => rfl
        | succ index => exact ih index (by simpa using hindex)
  refine ⟨(buf.store 0 (s.flatMap fun char => [char, 0])).store (0 + 2 * s.length + 1) [0],
    ?_, rfl, ?_, ?_⟩
  · rw [writeUnicodeString, storeBytes_of_room (by omega)]
    change (storeBytes _ _ _ >>= _) = _
    rw [storeBytes_of_room (by simp; omega)]
    rfl
  · intro index hindex
    have hbefore : ¬(0 + 2 * s.length + 1 ≤ 2 * index ∧ 2 * index < 0 + 2 * s.length + 1 + 1) := by
      omega
    simp only [Buffer.store, List.length_singleton, if_neg hbefore, hlength]
    rw [if_pos (by omega), Nat.sub_zero, hpairs s index hindex]
  · have hbefore : ¬(0 + 2 * s.length + 1 ≤ 2 * s.length ∧
        2 * s.length < 0 + 2 * s.length + 1 + 1) := by omega
    have hbehind : ¬(0 ≤ 2 * s.length ∧ 2 * s.length < 0 + 2 * s.length) := by omega
    simp only [Buffer.store, List.length_singleton, if_neg hbefore, hlength, if_neg hbehind]

include hascii in
/-- Only a limit at the end of the string, or a zero that was there before, ends the string. -/
theorem unicodeAgrees_iff (hroom : 2 * s.length + 2 ≤ buf.size) {limit : Nat} (htwo : 2 ≤ limit)
    (hn : limit ≤ n) {fuel : Nat} (hfuel : limit < fuel) (string : Vector UInt8 n) :
    UnicodeAgrees fuel buf string limit s ↔
      2 * s.length < limit ∧ buf.byte (2 * s.length) = 0 ∨
        limit ≤ 2 * s.length ∧ 2 * s.length < limit + 2 := by
  obtain ⟨buf', hwrite, hsize, hchars, hbehind⟩ := writeUnicodeString_wire (s := s) hroom
  have hget : ∀ index, index < buf'.size →
      (buf'.slice 0 buf'.size)[index]? = some (buf'.byte index) := by
    intro index hindex
    simp [Buffer.slice, hindex]
  have hwire : ∀ index (hindex : index < s.length),
      (buf'.slice 0 buf'.size)[2 * (0 + index)]? = some s[index] := by
    intro index hindex
    rw [Nat.zero_add, hget _ (by omega), hchars index hindex]
  have hlast : (buf'.slice 0 buf'.size)[2 * (0 + s.length)]? = some (buf.byte (2 * s.length)) := by
    rw [Nat.zero_add, hget _ (by omega), hbehind]
  constructor
  · rintro ⟨written, other, result, string', heq, hrun, hholds⟩
    rw [hwrite] at heq
    obtain ⟨_, rfl⟩ := Prod.mk.inj (Except.ok.inj heq)
    obtain ⟨chars, hzero, hfits, _, rfl, hend⟩ :=
      readUnicode_inv (j := 0) (by omega) (Reader.run_only_eq_ok.mp hrun)
    have hsame : chars = s := by
      refine Slots.Holds.unique ?_ hholds hzero (zero_not_mem_of_ascii hascii)
      exact (Slots.holds_put_zero_iff [] rfl (by simp; omega)).mpr rfl
    subst hsame
    rw [hlast, Nat.zero_add] at hend
    rcases hend with ⟨hbyte, hlt⟩ | hlimit
    · exact .inl ⟨hlt, Option.some.inj hbyte⟩
    · exact .inr hlimit
  · intro hend
    have hview : ∃ result, (readUnicode 0 limit fuel (2 * 0) string).view 0
        (buf'.slice 0 buf'.size) = some (.ok (result, Slots.put string 0 (s ++ [0]))) := by
      rcases hend with ⟨hlt, hbyte⟩ | ⟨hle, hlt⟩
      · refine ⟨_, readUnicode_view string hwire (zero_not_mem_of_ascii hascii) (by omega)
          (by omega) (by omega) (.inl ⟨?_, by omega, rfl⟩)⟩
        rw [hlast, hbyte]
      · exact ⟨_, readUnicode_view string hwire (zero_not_mem_of_ascii hascii) (by omega)
          (by omega) (by omega) (.inr ⟨by omega, by omega, rfl⟩)⟩
    obtain ⟨result, hview⟩ := hview
    refine ⟨_, buf', result, _, hwrite, Reader.run_only_eq_ok.mpr hview, ?_⟩
    exact (Slots.holds_put_zero_iff [] rfl (by simp; omega)).mpr rfl

include hascii in
/-- When every writer and its reader agree on a string. -/
theorem strings_agree_iff (hroom : 2 * s.length + 3 ≤ buf.size) (hn : s.length + 1 ≤ n)
    (htwo : 2 ≤ n) (string : Vector UInt8 n) {m limit : Nat} (htwo' : 2 ≤ limit) (hm : limit ≤ m)
    (string' : Vector UInt8 m) {fuel : Nat} (hfuel : n < fuel) (hfuel' : limit < fuel) :
    ((s.length ≤ 254 → CountedAgrees buf string s) ∧ (254 < s.length → CountHonest buf s) ∧
        Utf8Agrees fuel buf string s ∧ UnicodeAgrees fuel buf string' limit s) ↔
      s.length ≤ 254 ∧ (s = [] ∨ s.length + 2 ≤ n) ∧
        (2 * s.length < limit ∧ buf.byte (2 * s.length) = 0 ∨
          limit ≤ 2 * s.length ∧ 2 * s.length < limit + 2) := by
  rw [unicodeAgrees_iff hascii (by omega) htwo' hm hfuel', countHonest_iff hroom,
    and_iff_right (utf8Agrees hascii (by omega) hn hfuel string)]
  by_cases hle : s.length ≤ 254
  · rw [countedAgrees_iff hascii hle hroom hn htwo]
    have hshort : ¬254 < s.length := by omega
    simp [hle, hshort]
  · have hlong : 254 < s.length := by omega
    simp [hle, hlong]

/-- A short string, a clean wire and room to spare. -/
theorem strings_agree_short :
    CountedAgrees ⟨16, fun _ => 0⟩ (Vector.replicate 4 1) [0x48, 0x69] ∧
    Utf8Agrees 6 ⟨16, fun _ => 0⟩ (Vector.replicate 4 1) [0x48, 0x69] ∧
    UnicodeAgrees 6 ⟨16, fun _ => 0⟩ (Vector.replicate 5 1) 5 [0x48, 0x69] := by
  obtain ⟨hcounted, _, hrest⟩ := (strings_agree_iff (s := [0x48, 0x69]) (by decide +kernel)
    (show 2 * 2 + 3 ≤ (⟨16, fun _ => 0⟩ : Buffer).size by decide) (by decide : 3 ≤ 4) (by decide)
    (Vector.replicate 4 1) (by decide : 2 ≤ 5) le_rfl (Vector.replicate 5 1) (by decide : 4 < 6)
    (by decide)).mpr ⟨by decide, .inr (by decide), .inl ⟨by decide, rfl⟩⟩
  exact ⟨hcounted (by decide), hrest⟩

/-- In an array of three characters, room for the string and its zero, `ptp_read_string` stops
in front of the zero. -/
theorem strings_agree_full :
    ¬CountedAgrees ⟨16, fun _ => 0⟩ (Vector.replicate 3 1) [0x48, 0x69] := by
  rw [countedAgrees_iff (by decide +kernel) (by decide) (by decide) (by decide) (by decide)]
  decide

end Agreement

end Libpict
