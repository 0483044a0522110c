import Libpict.CommandGrammar
import Libpict.EvprocPack

/-! # The layout of packed event procedures

The two blocks begin with what has been packed so far. Packing goes through exactly if both
parts, one behind the other, fit in a block, and then the block begins with all of it.
-/

namespace Libpict

open Bytes CInt Exec

/-! ## Stores -/

section Stores

variable {block : Buffer} {bytes more : List UInt8}

theorem storeBytes_eq {of : Nat} (hle : of + bytes.length ≤ block.size) :
    storeBytes block of bytes = .ok (block.store of bytes) := if_pos hle

/-- A counter among other bytes. -/
theorem increment_begins {front back : List UInt8} {k : Nat} (hk : k < 256 ^ 4)
    (hbegins : block.Begins (front ++ leBytes 4 k ++ back)) :
    increment block front.length = .ok (block.store front.length (leBytes 4 (k + 1))) ∧
      (block.store front.length (leBytes 4 (k + 1))).Begins
        (front ++ leBytes 4 (k + 1) ++ back) := by
  have hslice : block.slice front.length 4 = leBytes 4 k := by
    have hmiddle := hbegins.slice_middle
    rwa [leBytes_length] at hmiddle
  have hle := hbegins.1
  simp only [List.length_append, leBytes_length] at hle
  constructor
  · rw [increment, hslice, leValue_leBytes_of_lt hk]
    apply storeBytes_eq
    rw [leBytes_length]
    omega
  · apply hbegins.store_middle
    rw [leBytes_length, leBytes_length]

end Stores

/-! ## One token -/

@[simp] theorem EvProcParam.bytes_length (param : EvProcParam) : param.bytes.length = 20 := by
  simp [EvProcParam.bytes]

/-- The string of a token ends in its array. -/
def Token.Terminated (tok : Token) : Prop := 0 ∈ tok.string.toList

instance (tok : Token) : Decidable tok.Terminated := inferInstanceAs (Decidable (_ ∈ _))

theorem Token.Terminated.cText_eq {tok : Token} (hterminated : tok.Terminated) :
    cText tok.string = .ok (arrayText tok.string) := if_pos hterminated

/-- What the blocks begin with when some arguments are packed. -/
structure Packs (name : List UInt8) (done : List Token) (p : Packing) : Prop where
  data : p.data.Begins (headBytes name done)
  length : p.length = (headBytes name done).length
  size : p.data.size = evprocSize
  numArgs : p.numArgs = name.length + 1
  footer : p.footer.Begins (footerBytes done)
  footerLength : p.footerLength = (footerBytes done).length
  footerSize : p.footer.size = evprocSize

/-- Both parts have room in their blocks. -/
def HasRoom (name : List UInt8) (done : List Token) : Prop :=
  (headBytes name done).length ≤ evprocSize ∧ (footerBytes done).length ≤ evprocSize

section Token

variable {name : List UInt8} {done : List Token} {p : Packing} {tok : Token}

/-- What is counted takes room. -/
theorem mul_countP_le {size : Nat} (counted : Token → Bool) {piece : Token → List UInt8}
    (hpiece : ∀ tok, counted tok = true → size ≤ (piece tok).length) (done : List Token) :
    size * done.countP counted ≤ (done.flatMap piece).length := by
  induction done with
  | nil => exact Nat.zero_le _
  | cons tok done ih =>
      rw [List.countP_cons, List.flatMap_cons, List.length_append, Nat.mul_add]
      by_cases hcounted : counted tok = true
      · have htok := hpiece tok hcounted
        rw [if_pos hcounted]
        omega
      · rw [if_neg hcounted]
        omega

theorem Token.record_length (hisArg : tok.isArg = true) : tok.record.length = 20 := by
  unfold Token.isArg at hisArg
  unfold Token.record
  split
  · exact EvProcParam.bytes_length _
  · exact EvProcParam.bytes_length _
  next htype =>
    rw [htype] at hisArg
    cases hisArg

theorem Token.long_length (hstr : (tok.type == .str) = true) :
    tok.long.length = 4 + ((arrayText tok.string).length + 1) := by
  rw [Token.long, eq_of_beq hstr]
  simp

theorem countP_isArg_lt (hroom : (headBytes name done).length ≤ evprocSize) :
    done.countP Token.isArg < 256 ^ 4 := by
  have hrecords := mul_countP_le Token.isArg (fun _ h => (Token.record_length h).ge) done
  have hlimit : evprocSize < 256 ^ 4 := by decide
  rw [headBytes, List.length_append] at hroom
  omega

theorem countP_str_lt (hroom : (footerBytes done).length ≤ evprocSize) :
    done.countP (·.type == .str) < 256 ^ 4 := by
  have hone : ∀ tok : Token, (tok.type == .str) = true → 1 ≤ tok.long.length := fun tok h => by
    rw [Token.long_length h]
    omega
  have hlong := mul_countP_le (fun tok => tok.type == .str) hone done
  have hlimit : evprocSize < 256 ^ 4 := by decide
  rw [footerBytes, List.length_append] at hroom
  omega

/-- The counts and the pieces of one token more. -/
theorem headBytes_append : headBytes name (done ++ [tok]) =
    (name ++ [0]) ++ leBytes 4 (done.countP Token.isArg + if tok.isArg then 1 else 0) ++
      (done.flatMap Token.record ++ tok.record) := by
  simp [headBytes, List.countP_append, List.countP_singleton]

theorem footerBytes_append : footerBytes (done ++ [tok]) =
    leBytes 4 (done.countP (·.type == .str) + if tok.type == .str then 1 else 0) ++
      (done.flatMap Token.long ++ tok.long) := by
  simp [footerBytes, List.countP_append, List.countP_singleton]

theorem headBytes_append_length :
    (headBytes name (done ++ [tok])).length = (headBytes name done).length + tok.record.length := by
  rw [headBytes_append, headBytes]
  simp only [List.length_append, leBytes_length]
  omega

theorem footerBytes_append_length :
    (footerBytes (done ++ [tok])).length = (footerBytes done).length + tok.long.length := by
  rw [footerBytes_append, footerBytes]
  simp only [List.length_append, leBytes_length]
  omega

/-- A record and its count are put into the first block. -/
theorem Packs.store_record (hpacks : Packs name done p) {record : List UInt8}
    (hle : (headBytes name done).length + record.length ≤ evprocSize) :
    ∃ data, storeBytes p.data p.length record = .ok data ∧ data.size = evprocSize ∧
      ∃ data', increment data p.numArgs = .ok data' ∧ data'.size = evprocSize ∧
        data'.Begins ((name ++ [0]) ++ leBytes 4 (done.countP Token.isArg + 1) ++
          (done.flatMap Token.record ++ record)) := by
  have hstore := hpacks.data.store_append record (by rw [hpacks.size]; exact hle)
  have hcount := countP_isArg_lt ((Nat.le_add_right _ _).trans hle)
  have hsplit : headBytes name done ++ record = (name ++ [0]) ++
      leBytes 4 (done.countP Token.isArg) ++ (done.flatMap Token.record ++ record) := by
    rw [headBytes, List.append_assoc]
  have hnumArgs : (name ++ [0]).length = p.numArgs := by
    rw [hpacks.numArgs, List.length_append, List.length_singleton]
  rw [← hpacks.length] at hle hstore
  rw [hsplit] at hstore
  obtain ⟨hincrement, hbegins⟩ := increment_begins hcount hstore
  rw [hnumArgs] at hincrement hbegins
  have hfits : p.length + record.length ≤ p.data.size := by
    rw [hpacks.size]
    exact hle
  exact ⟨_, storeBytes_eq hfits, hpacks.size, _, hincrement, hpacks.size, hbegins⟩

/-- A string and its count are put into the footer. -/
theorem Packs.store_long (hpacks : Packs name done p) {string : List UInt8}
    (hle : (footerBytes done).length + (4 + (string.length + 1)) ≤ evprocSize) :
    ∃ footer footer', storeBytes p.footer p.footerLength (leBytes 4 0) = .ok footer ∧
      ptpWriteUtf8String footer (p.footerLength + 4) string = .ok (string.length + 1, footer') ∧
      ∃ footer'', increment footer' 0 = .ok footer'' ∧ footer''.size = evprocSize ∧
        footer''.Begins (leBytes 4 (done.countP (·.type == .str) + 1) ++
          (done.flatMap Token.long ++ (leBytes 4 0 ++ (string ++ [0])))) := by
  have hcount := countP_str_lt ((Nat.le_add_right _ _).trans hle)
  have hword := hpacks.footer.store_append (leBytes 4 0)
    (by rw [hpacks.footerSize, leBytes_length]; omega)
  have hlength : (footerBytes done ++ leBytes 4 0).length = p.footerLength + 4 := by
    rw [List.length_append, leBytes_length, hpacks.footerLength]
  have hsplit : footerBytes done ++ leBytes 4 0 ++ (string ++ [0]) =
      [] ++ leBytes 4 (done.countP (·.type == .str)) ++
        (done.flatMap Token.long ++ (leBytes 4 0 ++ (string ++ [0]))) := by
    simp [footerBytes]
  rw [← hpacks.footerLength] at hle hword
  have hroom : p.footerLength + 4 + (string ++ [0]).length ≤
      (p.footer.store p.footerLength (leBytes 4 0)).size := by
    rw [List.length_append, List.length_singleton, Buffer.store_size, hpacks.footerSize]
    omega
  have hstring := hword.store_append (string ++ [0]) (by rwa [hlength])
  rw [hlength, hsplit] at hstring
  obtain ⟨hincrement, hbegins⟩ := increment_begins hcount hstring
  refine ⟨p.footer.store p.footerLength (leBytes 4 0), _, storeBytes_eq ?_, ?_, _, hincrement, ?_,
    hbegins⟩
  · rw [hpacks.footerSize, leBytes_length]
    omega
  · rw [ptpWriteUtf8String, storeBytes_eq hroom]
    rfl
  · exact hpacks.footerSize

/-- Packing one token. -/
theorem Packs.packToken (hpacks : Packs name done p) (hterminated : tok.Terminated)
    (hroom : HasRoom name (done ++ [tok])) :
    ∃ p', packToken p tok = .ok p' ∧ Packs name (done ++ [tok]) p' := by
  obtain ⟨hhead, hfooter⟩ := hroom
  rw [headBytes_append_length] at hhead
  rw [footerBytes_append_length] at hfooter
  unfold Libpict.packToken
  cases htype : tok.type with
  | int =>
      have hrecord : tok.record = EvProcParam.bytes ⟨eosTokInt, toUInt32 tok.integer, 0, 0, 0⟩ := by
        rw [Token.record, htype]
      have hlong : tok.long = [] := by rw [Token.long, htype]
      have hhead' : headBytes name (done ++ [tok]) = (name ++ [0]) ++
          leBytes 4 (done.countP Token.isArg + 1) ++ (done.flatMap Token.record ++ tok.record) := by
        rw [headBytes_append, Token.isArg, htype]
        rfl
      have hfooter' : footerBytes (done ++ [tok]) = footerBytes done := by
        rw [footerBytes_append, hlong, htype, footerBytes, List.append_nil]
        rfl
      obtain ⟨data, hdata, -, data', hincrement, hsize, hbegins⟩ := hpacks.store_record hhead
      rw [← hhead'] at hbegins
      rw [hrecord] at hdata
      refine ⟨⟨data', p.length + 20, p.numArgs, p.footer, p.footerLength⟩, ?_, hbegins, ?_, hsize,
        hpacks.numArgs, ?_, ?_, hpacks.footerSize⟩
      · refine (ok_bind hdata).trans ?_
        exact (ok_bind hincrement).trans rfl
      · rw [headBytes_append_length, hrecord, EvProcParam.bytes_length, hpacks.length]
      · rw [hfooter']
        exact hpacks.footer
      · rw [hfooter']
        exact hpacks.footerLength
  | str =>
      have hrecord : tok.record =
          EvProcParam.bytes ⟨eosTokStr, 0, 0, 0, (arrayText tok.string).length + 1⟩ := by
        rw [Token.record, htype]
      have hlong : tok.long = leBytes 4 0 ++ (arrayText tok.string ++ [0]) := by
        rw [Token.long, htype]
      have hhead' : headBytes name (done ++ [tok]) = (name ++ [0]) ++
          leBytes 4 (done.countP Token.isArg + 1) ++ (done.flatMap Token.record ++ tok.record) := by
        rw [headBytes_append, Token.isArg, htype]
        rfl
      have hfooter' : footerBytes (done ++ [tok]) =
          leBytes 4 (done.countP (·.type == .str) + 1) ++
            (done.flatMap Token.long ++ (leBytes 4 0 ++ (arrayText tok.string ++ [0]))) := by
        rw [footerBytes_append, hlong, htype]
        rfl
      obtain ⟨data, hdata, -, data', hincrement, hsize, hbegins⟩ := hpacks.store_record hhead
      rw [hlong, List.length_append, List.length_append, List.length_singleton,
        leBytes_length] at hfooter
      obtain ⟨footer, footer', hword, hstring, footer'', hcounter, hfooterSize, hfooterBegins⟩ :=
        hpacks.store_long hfooter
      rw [← hhead'] at hbegins
      rw [← hfooter'] at hfooterBegins
      rw [hrecord] at hdata
      refine ⟨⟨data', p.length + 20, p.numArgs, footer'',
        p.footerLength + 4 + ((arrayText tok.string).length + 1)⟩, ?_, hbegins, ?_, hsize,
        hpacks.numArgs, hfooterBegins, ?_, hfooterSize⟩
      · rw [hterminated.cText_eq]
        refine (ok_bind hdata).trans ?_
        refine (ok_bind hword).trans ?_
        refine (ok_bind hstring).trans ?_
        refine (ok_bind hcounter).trans ?_
        exact (ok_bind hincrement).trans rfl
      · rw [headBytes_append_length, hrecord, EvProcParam.bytes_length, hpacks.length]
      · rw [footerBytes_append_length, hlong, hpacks.footerLength]
        simp [Nat.add_assoc]
  | text =>
      refine ⟨p, rfl, ?_⟩
      have hrecord : tok.record = [] := by rw [Token.record, htype]
      have hlong : tok.long = [] := by rw [Token.long, htype]
      have hheadBytes : headBytes name (done ++ [tok]) = headBytes name done := by
        rw [headBytes_append, hrecord, Token.isArg, htype, headBytes]
        simp
      have hfooterBytes : footerBytes (done ++ [tok]) = footerBytes done := by
        rw [footerBytes_append, hlong, htype, footerBytes]
        simp
      refine ⟨?_, ?_, hpacks.size, hpacks.numArgs, ?_, ?_, hpacks.footerSize⟩
      · rw [hheadBytes]
        exact hpacks.data
      · rw [hheadBytes]
        exact hpacks.length
      · rw [hfooterBytes]
        exact hpacks.footer
      · rw [hfooterBytes]
        exact hpacks.footerLength

theorem le_of_storeBytes {block block' : Buffer} {of : Nat} {bytes : List UInt8}
    (hstore : storeBytes block of bytes = .ok block') :
    of + bytes.length ≤ block.size ∧ block'.size = block.size := by
  unfold storeBytes at hstore
  split at hstore
  next hle =>
    cases hstore
    exact ⟨hle, rfl⟩
  next => cases hstore

/-- A token that has been packed had room. -/
theorem Packs.hasRoom (hpacks : Packs name done p) {p' : Packing}
    (hpack : Libpict.packToken p tok = .ok p') : HasRoom name (done ++ [tok]) := by
  have hdone : HasRoom name done :=
    ⟨hpacks.size ▸ hpacks.data.1, hpacks.footerSize ▸ hpacks.footer.1⟩
  rw [HasRoom, headBytes_append_length, footerBytes_append_length]
  unfold Libpict.packToken at hpack
  cases htype : tok.type with
  | int =>
      have hrecord : tok.record.length = 20 := Token.record_length (by rw [Token.isArg, htype]; rfl)
      have hlong : tok.long = [] := by rw [Token.long, htype]
      rw [htype] at hpack
      obtain ⟨data, hdata, -⟩ := Exec.except_bind_eq_ok.mp hpack
      have hle := (le_of_storeBytes hdata).1
      rw [EvProcParam.bytes_length, hpacks.length, hpacks.size] at hle
      rw [hrecord, hlong]
      exact ⟨hle, hdone.2⟩
  | str =>
      have hrecord : tok.record.length = 20 := Token.record_length (by rw [Token.isArg, htype]; rfl)
      have hlong : tok.long.length = 4 + ((arrayText tok.string).length + 1) :=
        Token.long_length (by rw [htype]; rfl)
      rw [htype] at hpack
      obtain ⟨string, hstring, hpack⟩ := Exec.except_bind_eq_ok.mp hpack
      obtain ⟨data, hdata, hpack⟩ := Exec.except_bind_eq_ok.mp hpack
      obtain ⟨footer, hfooter, hpack⟩ := Exec.except_bind_eq_ok.mp hpack
      obtain ⟨⟨written, footer'⟩, hwrite, -⟩ := Exec.except_bind_eq_ok.mp hpack
      obtain ⟨written', hwritten, -⟩ := Exec.except_bind_eq_ok.mp hwrite
      have hle := (le_of_storeBytes hdata).1
      have hle' := (le_of_storeBytes hwritten).1
      rw [EvProcParam.bytes_length, hpacks.length, hpacks.size] at hle
      rw [(le_of_storeBytes hfooter).2, hpacks.footerSize, hpacks.footerLength,
        List.length_append, List.length_singleton] at hle'
      unfold cText at hstring
      split at hstring
      next =>
        cases hstring
        rw [hrecord, hlong]
        exact ⟨hle, by omega⟩
      next => cases hstring
  | text =>
      have hrecord : tok.record = [] := by rw [Token.record, htype]
      have hlong : tok.long = [] := by rw [Token.long, htype]
      rw [hrecord, hlong]
      exact hdone

theorem HasRoom.mono {more : List Token} (hroom : HasRoom name (done ++ more)) :
    HasRoom name done := by
  induction more using List.reverseRecOn with
  | nil => rwa [List.append_nil] at hroom
  | append_singleton more tok ih =>
      rw [← List.append_assoc, HasRoom, headBytes_append_length, footerBytes_append_length] at hroom
      exact ih ⟨(Nat.le_add_right _ _).trans hroom.1, (Nat.le_add_right _ _).trans hroom.2⟩

/-- Packing the arguments that have room. -/
theorem Packs.foldlM {args : List Token} (hpacks : Packs name done p)
    (hterminated : ∀ tok ∈ args, tok.Terminated) (hroom : HasRoom name (done ++ args)) :
    ∃ p', args.foldlM Libpict.packToken p = .ok p' ∧ Packs name (done ++ args) p' := by
  induction args generalizing done p with
  | nil => exact ⟨p, rfl, by rwa [List.append_nil]⟩
  | cons tok args ih =>
      rw [← List.singleton_append, ← List.append_assoc] at hroom
      obtain ⟨p', hpack, hpacks'⟩ := hpacks.packToken (hterminated tok List.mem_cons_self) hroom.mono
      obtain ⟨q, hfold, hpacks''⟩ :=
        ih hpacks' (fun tok hmem => hterminated tok (List.mem_cons_of_mem _ hmem)) hroom
      refine ⟨q, ?_, ?_⟩
      · rw [List.foldlM_cons]
        exact (ok_bind hpack).trans hfold
      · rwa [List.append_assoc, List.singleton_append] at hpacks''

/-- Arguments that have been packed had room. -/
theorem Packs.hasRoom_of_foldlM {args : List Token} {q : Packing} (hpacks : Packs name done p)
    (hterminated : ∀ tok ∈ args, tok.Terminated)
    (hfold : args.foldlM Libpict.packToken p = .ok q) : HasRoom name (done ++ args) := by
  induction args generalizing done p with
  | nil =>
      rw [List.append_nil]
      exact ⟨hpacks.size ▸ hpacks.data.1, hpacks.footerSize ▸ hpacks.footer.1⟩
  | cons tok args ih =>
      rw [List.foldlM_cons] at hfold
      obtain ⟨p', hpack, hfold⟩ := Exec.except_bind_eq_ok.mp hfold
      have hroom := hpacks.hasRoom hpack
      obtain ⟨p'', hpack', hpacks'⟩ := hpacks.packToken (hterminated tok List.mem_cons_self) hroom
      obtain rfl := Except.ok.inj (hpack.symm.trans hpack')
      have hrest := ih hpacks' (fun tok hmem => hterminated tok (List.mem_cons_of_mem _ hmem)) hfold
      rwa [List.append_assoc, List.singleton_append] at hrest

end Token

/-! ## All tokens -/

section Tokens

variable {toks : Tokens} {first : Token} {args : List Token} {footer data : Buffer}

theorem arrayText_length_lt {tok : Token} (hterminated : tok.Terminated) :
    (arrayText tok.string).length < maxStr := by
  have hsplit := List.takeWhile_append_dropWhile (p := (· != (0 : UInt8))) (l := tok.string.toList)
  have hlength := congrArg List.length hsplit
  rw [List.length_append, Vector.length_toList] at hlength
  have hne : (tok.string.toList.dropWhile (· != 0)).length ≠ 0 := by
    intro hnil
    rw [List.length_eq_zero_iff, List.dropWhile_eq_nil_iff] at hnil
    exact absurd (hnil 0 hterminated) (by decide)
  unfold arrayText
  omega

/-- The blocks in front of the first argument. -/
theorem packs_nil {name : List UInt8} (hname : name.length < maxStr) (hfooter : footer.size = evprocSize)
    (hdata : data.size = evprocSize) :
    ∃ data' data'', storeBytes data 0 (name ++ [0]) = .ok data' ∧
      storeBytes data' (name.length + 1) (leBytes 4 0) = .ok data'' ∧
      Packs name [] ⟨data'', name.length + 1 + 4, name.length + 1, footer.store 0 (leBytes 4 0), 4⟩ := by
  have hlimit : maxStr + 4 ≤ evprocSize := by decide
  have hlength : (name ++ [0]).length = name.length + 1 := by
    rw [List.length_append, List.length_singleton]
  have hbegins := (Buffer.begins_nil data).store_append (name ++ [0])
    (by rw [hdata, hlength, List.length_nil]; omega)
  have hcounter := hbegins.store_append (leBytes 4 0)
    (by rw [List.nil_append, hlength, leBytes_length, Buffer.store_size, hdata]; omega)
  rw [List.nil_append, hlength] at hcounter
  have hlong := (Buffer.begins_nil footer).store_append (leBytes 4 0)
    (by rw [hfooter]; decide)
  have hhead : headBytes name [] = name ++ [0] ++ leBytes 4 0 := List.append_nil _
  refine ⟨_, _, storeBytes_eq ?_, storeBytes_eq ?_, ?_, ?_, hdata, rfl, hlong, rfl, hfooter⟩
  · rw [hlength, hdata]
    omega
  · rw [leBytes_length, Buffer.store_size, hdata]
    omega
  · rw [hhead]
    exact hcounter
  · rw [hhead, List.length_append, hlength, leBytes_length]

theorem packedBytes_length (name : List UInt8) (args : List Token) :
    (packedBytes name args).length = (headBytes name args).length + (footerBytes args).length :=
  List.length_append

theorem packTokens_of_text (htake : toks.t.toList.take toks.length = first :: args)
    (htext : first.type = .text) (hfirst : first.Terminated) {data' data'' : Buffer}
    (hname : storeBytes data 0 (arrayText first.string ++ [0]) = .ok data')
    (hcounter : storeBytes data' ((arrayText first.string).length + 1) (leBytes 4 0) = .ok data'') :
    packTokens toks footer (some data) = (do
      let p ← args.foldlM packToken ⟨data'', (arrayText first.string).length + 1 + 4,
        (arrayText first.string).length + 1, footer, 4⟩
      let data ← storeBytes p.data p.length (p.footer.slice 0 p.footerLength)
      return some (data, p.length + p.footerLength)) := by
  rw [packTokens, htake]
  simp only [htext, hfirst.cText_eq]
  refine (ok_bind rfl).trans ?_
  refine (ok_bind hname).trans ?_
  exact ok_bind hcounter

/-- A command whose packed form fits is packed. -/
theorem packTokens_eq (htake : toks.t.toList.take toks.length = first :: args)
    (htext : first.type = .text) (hterminated : ∀ tok ∈ first :: args, tok.Terminated)
    (hfooter : footer.size = evprocSize) (hdata : data.size = evprocSize)
    (hfits : (packedBytes (arrayText first.string) args).length ≤ evprocSize) :
    ∃ block, packTokens toks (footer.store 0 (leBytes 4 0)) (some data) =
        .ok (some (block, (packedBytes (arrayText first.string) args).length)) ∧
      block.Begins (packedBytes (arrayText first.string) args) := by
  have hfirst := hterminated first List.mem_cons_self
  obtain ⟨data', data'', hname, hcounter, hpacks⟩ :=
    packs_nil (arrayText_length_lt hfirst) hfooter hdata
  rw [packedBytes_length] at hfits
  obtain ⟨p, hfold, hpacked⟩ := hpacks.foldlM
    (fun tok hmem => hterminated tok (List.mem_cons_of_mem _ hmem))
    (⟨by rw [List.nil_append]; omega, by rw [List.nil_append]; omega⟩ : HasRoom _ ([] ++ args))
  rw [List.nil_append] at hpacked
  have hslice : p.footer.slice 0 p.footerLength = footerBytes args := by
    rw [hpacked.footerLength]
    exact hpacked.footer.2
  have hjoin := hpacked.data.store_append (footerBytes args)
    (by rw [hpacked.size]; exact hfits)
  rw [← hpacked.length] at hjoin
  refine ⟨_, ?_, hjoin⟩
  rw [packTokens_of_text htake htext hfirst hname hcounter]
  refine (ok_bind hfold).trans ?_
  rw [hslice]
  refine (ok_bind (storeBytes_eq ?_)).trans ?_
  · rw [hpacked.length, hpacked.size]
    exact hfits
  · rw [packedBytes_length, hpacked.length, hpacked.footerLength]
    rfl

/-- A command that is packed has a packed form that fits. -/
theorem fits_of_packTokens (htake : toks.t.toList.take toks.length = first :: args)
    (htext : first.type = .text) (hterminated : ∀ tok ∈ first :: args, tok.Terminated)
    (hfooter : footer.size = evprocSize) (hdata : data.size = evprocSize)
    {result : Option (Buffer × Nat)}
    (hpack : packTokens toks (footer.store 0 (leBytes 4 0)) (some data) = .ok result) :
    (packedBytes (arrayText first.string) args).length ≤ evprocSize := by
  have hfirst := hterminated first List.mem_cons_self
  have hargs : ∀ tok ∈ args, tok.Terminated := fun tok hmem =>
    hterminated tok (List.mem_cons_of_mem _ hmem)
  obtain ⟨data', data'', hname, hcounter, hpacks⟩ :=
    packs_nil (arrayText_length_lt hfirst) hfooter hdata
  rw [packTokens_of_text htake htext hfirst hname hcounter] at hpack
  obtain ⟨p, hfold, hpack⟩ := Exec.except_bind_eq_ok.mp hpack
  obtain ⟨block, hjoin, -⟩ := Exec.except_bind_eq_ok.mp hpack
  obtain ⟨q, hfold', hpacked⟩ := hpacks.foldlM hargs (hpacks.hasRoom_of_foldlM hargs hfold)
  obtain rfl := Except.ok.inj (hfold.symm.trans hfold')
  rw [List.nil_append] at hpacked
  have hle := (le_of_storeBytes hjoin).1
  rwa [Buffer.slice_length, hpacked.length, hpacked.footerLength, hpacked.size,
    ← packedBytes_length] at hle

/-- `canon_evproc_pack` behind the lexer: whatever the two blocks held, the result is the name
with its zero, the number of arguments, a record for each, the number of strings, and a zero word
and the string with its zero for each of those; and the length is that of these bytes. -/
theorem packTokens_layout (hlength : 1 ≤ toks.length ∧ toks.length ≤ maxTok)
    (htext : toks.t[0].type = .text)
    (hterminated : ∀ tok ∈ toks.t.toList.take toks.length, tok.Terminated)
    (hfits : (packedBytes (arrayText toks.t[0].string)
      ((toks.t.toList.take toks.length).drop 1)).length ≤ evprocSize)
    (hfooter : footer.size = evprocSize) (hdata : data.size = evprocSize) :
    ∃ block n, packTokens toks (footer.store 0 (leBytes 4 0)) (some data) = .ok (some (block, n)) ∧
      n = (packedBytes (arrayText toks.t[0].string)
        ((toks.t.toList.take toks.length).drop 1)).length ∧
      block.slice 0 n = packedBytes (arrayText toks.t[0].string)
        ((toks.t.toList.take toks.length).drop 1) := by
  have hfull : toks.t.toList.length = maxTok := Vector.length_toList
  obtain ⟨first, args, htake⟩ : ∃ first args, toks.t.toList.take toks.length = first :: args := by
    apply List.exists_cons_of_ne_nil
    intro hnil
    have hcount := congrArg List.length hnil
    rw [List.length_take, hfull, List.length_nil] at hcount
    omega
  have hfirst : toks.t[0] = first := by
    have hhead := congrArg List.head? htake
    rw [List.head?_take, if_neg (by omega), List.head?_eq_getElem?, Vector.getElem?_toList] at hhead
    exact Option.some.inj hhead
  have hargs : (toks.t.toList.take toks.length).drop 1 = args := by
    rw [htake]
    rfl
  rw [hfirst] at htext
  rw [hfirst, hargs] at hfits
  rw [htake] at hterminated
  rw [hfirst, hargs]
  obtain ⟨block, hpack, hbegins⟩ := packTokens_eq htake htext hterminated hfooter hdata hfits
  exact ⟨block, _, hpack, rfl, hbegins.2⟩

end Tokens

/-! ## Commands -/

/-- The characters of a lexeme are those that its entry of the table holds. -/
def Lexeme.Sound : Lexeme → Prop
  | .text word => 0 ∉ word ∧ word.length < maxStr
  | .int _ => True
  | .str string => 0 ∉ string ∧ string.length < maxStr

theorem Command.sound {overflow : Overflow} {line : List UInt8} {items : List Lexeme}
    (hcommand : Command overflow line items) (hzero : 0 ∉ line) : ∀ item ∈ items, item.Sound := by
  induction hcommand with
  | nil => simp
  | blank hblank hne hrest ih => exact ih fun hmem => hzero (List.mem_cons_of_mem _ hmem)
  | @piece line taken rest item items hline hscan hrest ih =>
      subst hline
      rw [List.mem_append, not_or] at hzero
      intro item' hmem
      rcases List.mem_append.mp hmem with hfirst | hlater
      · obtain rfl := Option.mem_toList.mp hfirst
        cases hscan with
        | text hne hword hend hlength => exact ⟨hzero.1, hlength⟩
        | hex hdigits hend hvalue => trivial
        | number hne hdigits hend hplain hvalue => trivial
        | quoted hquote hlength =>
            refine ⟨fun hmem => hzero.1 ?_, hlength⟩
            exact List.mem_append_left _ (List.mem_cons_of_mem _ hmem)
      · exact ih hzero.2 item' hlater

theorem toList_put_zero {string : List UInt8} (hlength : string.length < maxStr) :
    ∃ rest, (Slots.put Token.zero.string 0 (string ++ [0])).toList = string ++ 0 :: rest := by
  rw [Slots.toList_put _ _ (by rw [List.length_append, List.length_singleton]; omega)]
  exact ⟨_, by rw [List.append_assoc, List.singleton_append]⟩

theorem arrayText_put {string : List UInt8} (hzero : 0 ∉ string)
    (hlength : string.length < maxStr) :
    arrayText (Slots.put Token.zero.string 0 (string ++ [0])) = string := by
  obtain ⟨rest, hput⟩ := toList_put_zero hlength
  rw [arrayText, hput, List.takeWhile_append_of_pos]
  · simp
  · exact fun char hchar => bne_iff_ne.mpr (ne_of_mem_of_not_mem hchar hzero)

theorem Lexeme.Sound.terminated {item : Lexeme} (hsound : item.Sound) : item.token.Terminated := by
  cases item with
  | text word =>
      obtain ⟨rest, hput⟩ := toList_put_zero hsound.2
      rw [Token.Terminated, Lexeme.token, hput]
      simp
  | int value => exact List.mem_cons_self
  | str string =>
      obtain ⟨rest, hput⟩ := toList_put_zero hsound.2
      rw [Token.Terminated, Lexeme.token, hput]
      simp

theorem take_tableOf (items : List Lexeme) (hle : items.length ≤ maxTok) :
    (tableOf items).toList.take items.length = items.map Lexeme.token := by
  have hlength : (items.map Lexeme.token).length = items.length := List.length_map _
  rw [tableOf, Slots.toList_put _ _ (by rwa [hlength]), ← hlength, List.take_left]

/-- A command that starts with a word needs a block for its packed form, and has to fit in it. -/
def Packable (memory : Allocator) (allocations : Nat) : List Lexeme → Prop
  | .text name :: args => (memory allocations evprocSize).isSome ∧
      (packedBytes name (args.map Lexeme.token)).length ≤ evprocSize
  | _ => True

/-- NULL, or a packed block with its length. -/
def IsPacked (result : Option (Buffer × Nat)) : Prop :=
  ∀ block n, result = some (block, n) → ∃ name args, n = (packedBytes name args).length ∧
    block.Begins (packedBytes name args)

theorem malloc_size {memory : Allocator} {allocations size : Nat} {block : Buffer}
    (hmalloc : memory.malloc allocations size = some block) : block.size = size := by
  obtain ⟨contents, -, rfl⟩ := Option.map_eq_some_iff.mp hmalloc
  rfl

theorem malloc_isSome {memory : Allocator} {allocations size : Nat} :
    (memory.malloc allocations size).isSome = (memory allocations size).isSome := Option.isSome_map

/-- What is packed of the lexemes of a line. -/
theorem packTokens_tableOf {memory : Allocator} {allocations : Nat} {items : List Lexeme}
    (hsound : ∀ item ∈ items, item.Sound) (hle : items.length ≤ maxTok) {footer : Buffer}
    (hfooter : footer.size = evprocSize) :
    (∃ result, packTokens ⟨tableOf items, items.length⟩ (footer.store 0 (leBytes 4 0))
        (memory.malloc allocations evprocSize) = .ok result ∧ IsPacked result) ↔
      Packable memory allocations items := by
  have htake := take_tableOf _ hle
  have hnull : ∀ {other : Except Halt (Option (Buffer × Nat))}, other = .ok none →
      ((∃ result, other = .ok result ∧ IsPacked result) ↔ True) := fun hother =>
    iff_true_intro ⟨none, hother, fun block n h => nomatch h⟩
  cases items with
  | nil => exact hnull rfl
  | cons first args =>
      have hterminated : ∀ tok ∈ (first :: args).map Lexeme.token, tok.Terminated := by
        intro tok hmem
        obtain ⟨item, hitem, rfl⟩ := List.mem_map.mp hmem
        exact (hsound item hitem).terminated
      cases first with
      | int value =>
          apply hnull
          rw [packTokens, htake]
          rfl
      | str string =>
          apply hnull
          rw [packTokens, htake]
          rfl
      | text name =>
          obtain ⟨hname, hlength⟩ := hsound _ List.mem_cons_self
          have htext := arrayText_put hname hlength
          rw [Packable, ← malloc_isSome]
          cases hmalloc : memory.malloc allocations evprocSize with
          | none =>
              refine iff_of_false ?_ fun h => absurd h.1 (by decide)
              rintro ⟨result, hpack, -⟩
              rw [packTokens, htake] at hpack
              cases hpack
          | some data =>
              have hdata := malloc_size hmalloc
              constructor
              · rintro ⟨result, hpack, -⟩
                have hfits := fits_of_packTokens htake rfl hterminated hfooter hdata hpack
                exact ⟨rfl, htext ▸ hfits⟩
              · rintro ⟨-, hfits⟩
                have hname : arrayText (Lexeme.token (.text name)).string = name := htext
                obtain ⟨block, hpack, hbegins⟩ := @packTokens_eq ⟨_, _⟩ _ _ _ _ htake rfl
                  hterminated hfooter hdata (by rwa [hname])
                refine ⟨_, hpack, fun block' n h => ?_⟩
                obtain ⟨rfl, rfl⟩ := Prod.mk.inj (Option.some.inj h)
                exact ⟨_, _, rfl, hbegins⟩

section Safety

variable {overflow : Overflow} {memory : Allocator} {allocations fuel : Nat}

theorem returns_ofExcept {α : Type} {window : List UInt8} (x : Except Halt α) (post : α → Prop) :
    (Reader.ofExcept x : Reader UInt8 Halt α).Returns 0 window post ↔
      ∃ a, x = .ok a ∧ post a := by
  cases x with
  | error reason => simp [Reader.ofExcept]
  | ok a => simp [Reader.ofExcept]

theorem canonEvprocPack_eq {footer : Buffer}
    (hmalloc : memory.malloc allocations evprocSize = some footer) :
    canonEvprocPack overflow memory allocations fuel = (do
      let toks ← lexEvprocCommand overflow memory (allocations + 1) fuel
      match toks with
      | none => .stop .undefined
      | some toks => Reader.ofExcept (packTokens toks (footer.store 0 (leBytes 4 0))
          (memory.malloc (allocations + 2) evprocSize))) := by
  have hstore : storeBytes footer 0 (leBytes 4 0) = .ok (footer.store 0 (leBytes 4 0)) :=
    storeBytes_eq (by rw [malloc_size hmalloc]; decide)
  rw [canonEvprocPack, hmalloc]
  dsimp only
  rw [hstore]
  rfl

/-- The lexer and `canon_evproc_pack` end, inside the request and inside their blocks, on the
lines of the grammar whose at most ten lexemes, if they start with a word, have a packed form
that fits; and on no other. -/
theorem evproc_safe_iff (line : CString) (hfuel : line.chars.length < fuel) :
    ((lexEvprocCommand overflow memory (allocations + 1) fuel).Returns 0 line.bytes
        (fun _ => True) ∧
      (canonEvprocPack overflow memory allocations fuel).Returns 0 line.bytes IsPacked) ↔
      ((memory allocations evprocSize).isSome ∧ (memory (allocations + 1) tokensSize).isSome) ∧
        ∃ items, Command overflow line.chars items ∧ items.length ≤ maxTok ∧
          Packable memory (allocations + 2) items := by
  by_cases hfooter : (memory allocations evprocSize).isSome = true
  · by_cases htokens : (memory (allocations + 1) tokensSize).isSome = true
    · rw [← malloc_isSome] at hfooter
      obtain ⟨footer, hmalloc⟩ := Option.isSome_iff_exists.mp hfooter
      have hsize := malloc_size hmalloc
      rw [malloc_isSome] at hfooter
      rw [and_iff_right (⟨hfooter, htokens⟩ : _ ∧ _), returns_lexEvprocCommand htokens line hfuel,
        canonEvprocPack_eq hmalloc, Reader.returns_bind,
        returns_lexEvprocCommand htokens line hfuel]
      have hpack : ∀ {items}, Command overflow line.chars items → items.length ≤ maxTok →
          _ := fun {items} hcommand hle => @packTokens_tableOf memory (allocations + 2) items
        (hcommand.sound line.zero_notMem) hle footer hsize
      constructor
      · rintro ⟨-, items, hcommand, hle, hreturns⟩
        exact ⟨items, hcommand, hle, (hpack hcommand hle).mp ((returns_ofExcept _ _).mp hreturns)⟩
      · rintro ⟨items, hcommand, hle, hpackable⟩
        exact ⟨⟨items, hcommand, hle, trivial⟩, items, hcommand, hle,
          (returns_ofExcept _ _).mpr ((hpack hcommand hle).mpr hpackable)⟩
    · have hmalloc : memory.malloc (allocations + 1) tokensSize = none := by
        rwa [← malloc_isSome, Option.not_isSome_iff_eq_none] at htokens
      refine iff_of_false (fun h => ?_) fun h => htokens h.1.2
      have hlex := h.1
      rw [lexEvprocCommand, hmalloc] at hlex
      exact (Reader.returns_stop _ _).mp hlex
  · have hmalloc : memory.malloc allocations evprocSize = none := by
      rwa [← malloc_isSome, Option.not_isSome_iff_eq_none] at hfooter
    refine iff_of_false (fun h => ?_) fun h => hfooter h.1.1
    have hpack := h.2
    rw [canonEvprocPack, hmalloc] at hpack
    exact (Reader.returns_stop _ _).mp hpack

/-- A word with a number and a string: `x 5 'a'`. -/
def wordLine : CString := ⟨[0x78, 0x20, 0x35, 0x20, 0x27, 0x61, 0x27], by decide⟩

theorem evproc_safe_word :
    (lexEvprocCommand .undefined zeroedMemory 1 8).Returns 0 wordLine.bytes (fun _ => True) ∧
      (canonEvprocPack .undefined zeroedMemory 0 8).Returns 0 wordLine.bytes IsPacked := by
  refine (evproc_safe_iff wordLine (by decide)).mpr
    ⟨⟨rfl, rfl⟩, [.text [0x78], .int 5, .str [0x61]], ?_, by decide, rfl, by decide +kernel⟩
  have hstring : Command .undefined [0x27, 0x61, 0x27] [.str [0x61]] :=
    @Command.piece .undefined _ _ [] (some (.str [0x61])) [] (List.append_nil _).symm
      (@Scans.quoted .undefined [0x61] [] (by decide) (by decide)) .nil
  have hnumber : Command .undefined [0x35, 0x20, 0x27, 0x61, 0x27] [.int 5, .str [0x61]] :=
    @Command.piece .undefined _ [0x35] _ (some (.int 5)) _ rfl
      (@Scans.number .undefined [0x35] _ (by decide) (List.all_eq_true.mp rfl) (apart_cons.mpr rfl)
        (by decide) (by decide)) (.blank rfl (by decide) hstring)
  exact @Command.piece .undefined _ [0x78] _ (some (.text [0x78])) _ rfl
    (.text (by decide) (List.all_eq_true.mp rfl) (apart_cons.mpr rfl) (by decide))
    (.blank rfl (by decide) hnumber)

/-- Behind a blank at the end of a line the lexer goes on reading. -/
theorem evproc_blank_end :
    (lexEvprocCommand .wraps zeroedMemory 1 10).view 0 (CString.bytes ⟨[0x78, 0x20], by decide⟩) =
      none := by
  decide +kernel

/-- A word, a string and a number. -/
theorem packTokens_layout_string :
    ∃ block n, packTokens ⟨tableOf [.text [0x78], .str [0x61], .int 5], 3⟩
        (Buffer.store ⟨evprocSize, fun _ => 1⟩ 0 (leBytes 4 0)) (some ⟨evprocSize, fun _ => 2⟩) =
          .ok (some (block, n)) ∧
      n = 56 ∧
      block.slice 0 n = packedBytes [0x78] [(Lexeme.str [0x61]).token, (Lexeme.int 5).token] := by
  have hlayout := @packTokens_layout ⟨tableOf [.text [0x78], .str [0x61], .int 5], 3⟩
    ⟨evprocSize, fun _ => 1⟩ ⟨evprocSize, fun _ => 2⟩ (by decide) (by decide +kernel)
    (by decide +kernel) (by decide +kernel) rfl rfl
  obtain ⟨block, n, hpack, hn, hslice⟩ := hlayout
  exact ⟨block, n, hpack, hn.trans (by decide +kernel), hslice.trans (by decide +kernel)⟩

end Safety

end Libpict
