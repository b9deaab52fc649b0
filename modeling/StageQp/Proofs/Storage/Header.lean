import StageQp.Proofs.Storage.Record
import StageQp.Storage.Header

/-!
# StageQp.Proofs.Storage.Header

A header that is stored is read back, a header verifies against the layout it was
made for, and its epoch is no part of what is verified.  Every other word is: a
header is refused exactly when one of them is not what the layout prescribes
(`verify_ofWords`).

So the words of a header tell which layout they were written for, as long as that
layout can be written down at all (`Describable`): they verify against no other, and
no longer against their own when a bit off the epoch has changed (`identifies_write`).
-/

namespace StageQp

namespace RecordHeader

/-- The words of a table of four rows, one by one. -/
theorem toWords_eq (h : RecordHeader) :
    h.toWords = [h.tag, h.total, h.epoch, h.children, h.table[0].offset, h.table[0].len,
      h.table[1].offset, h.table[1].len, h.table[2].offset, h.table[2].len,
      h.table[3].offset, h.table[3].len] := by
  obtain ⟨tag, total, epoch, children, table⟩ := h
  have ht : table.toList = [table[0], table[1], table[2], table[3]] := by
    apply List.ext_getElem
    · simp
    · intro i h1 h2
      have : i < 4 := by simpa using h1
      match i, this with
      | 0, _ => simp
      | 1, _ => simp
      | 2, _ => simp
      | 3, _ => simp
  simp [toWords, ht]

instance : LawfulRecord RecordHeader :=
  Record.lawful_ofWords (fun h => by simp [toWords_eq])
    (fun f g hfg => by
      have ht : ∀ i : Fin 4, f (4 + 2 * i.val) = g (4 + 2 * i.val) ∧
          f (5 + 2 * i.val) = g (5 + 2 * i.val) := fun i =>
        ⟨hfg _ (by omega), hfg _ (by omega)⟩
      simp [ofWords, hfg 0, hfg 1, hfg 2, hfg 3, ht])
    (fun h => by
      obtain ⟨tag, total, epoch, children, table⟩ := h
      simp only [ofWords, toWords_eq, RecordHeader.mk.injEq]
      refine ⟨rfl, rfl, rfl, rfl, ?_⟩
      apply Vector.ext
      intro i hi
      match i, hi with
      | 0, _ => simp
      | 1, _ => simp
      | 2, _ => simp
      | 3, _ => simp)

/-- A header takes twelve words. -/
theorem length_toWords (h : RecordHeader) : h.toWords.length = 12 := by simp [toWords_eq]

/-- The words of a header read from words, with another epoch. -/
theorem toWords_ofWords_with_epoch (word : Nat → UInt64) (epoch : UInt64) :
    { ofWords word with epoch }.toWords =
      (List.range 12).map fun i => if i = 2 then epoch else word i := by
  simp [toWords_eq, ofWords, List.range_succ]

/-- Counting in a header that fills its words changes the epoch word alone. -/
theorem set_epoch {w : Words} (hw : w.size = 12) (f : UInt64 → UInt64) :
    Record.set w 0 { (Record.get w 0 : RecordHeader) with
      epoch := f (Record.get w 0 : RecordHeader).epoch } = w.modify 2 f := by
  have hget : (Record.get w 0 : RecordHeader) = ofWords fun i => w.getD i 0 := by
    show ofWords (fun i => w.getD (12 * 0 + i) 0) = _
    simp
  show Words.paste w 0 (toWords _).toArray = _
  rw [hget, toWords_ofWords_with_epoch, Words.paste_zero (by simp [hw])]
  apply Array.ext
  · simp [hw]
  · intro i h1 h2
    have hi : i < w.size := by simpa using h2
    rw [Array.getElem_modify]
    by_cases h : i = 2
    · subst h
      simp [ofWords, hi]
    · simp [h, Ne.symm h, hi]

/-- A header verifies against the layout it was made for, whatever its epoch. -/
theorem verify_make (tag : UInt64) (total : Nat) (children : List Block) (epoch : UInt64) :
    { make tag total children with epoch }.verify tag total children = .ok () := by
  simp [verify]

/-- Counting a solve does not change what a header verifies against. -/
theorem verify_with_epoch (h : RecordHeader) (epoch tag : UInt64) (total : Nat)
    (children : List Block) :
    { h with epoch }.verify tag total children = h.verify tag total children := rfl

/-! ## Which word is at fault -/

/-- The part of a header that is at fault when its words should be others: any word
but that of the epoch counts. -/
def flaw? (word expected : Nat → UInt64) : Option HeaderPart :=
  if ∀ i : Nat, i < 12 → i ≠ 2 → word i = expected i then none
  else if word 0 ≠ expected 0 then some .tag
  else if word 1 ≠ expected 1 then some .totalSize
  else some .blockTable

/-- A header has no flaw if all its words but the third are as expected. -/
theorem flaw?_eq_none_iff {word expected : Nat → UInt64} :
    flaw? word expected = none ↔ ∀ i : Nat, i < 12 → i ≠ 2 → word i = expected i := by
  rw [flaw?]
  split
  · next hall => simpa using hall
  · next hno =>
      have hsome : (if word 0 ≠ expected 0 then some HeaderPart.tag
          else if word 1 ≠ expected 1 then some .totalSize else some .blockTable) ≠ none := by
        split
        · exact Option.some_ne_none _
        · split <;> exact Option.some_ne_none _
      exact iff_of_false hsome hno

/-- Headers are the same if their words are. -/
theorem ofWords_eq_iff {word expected : Nat → UInt64} :
    ofWords word = ofWords expected ↔ ∀ i : Nat, i < 12 → word i = expected i := by
  constructor
  · intro h i hi
    have hw := congrArg (fun l : List UInt64 => l[i]?) (congrArg toWords h)
    have hl : ∀ f : Nat → UInt64, (ofWords f).toWords[i]? = some (f i) := fun f => by
      rw [show ofWords f = { ofWords f with epoch := f 2 } from rfl, toWords_ofWords_with_epoch,
        List.getElem?_map, List.getElem?_range hi, Option.map_some]
      split
      · next h => rw [h]
      · rfl
    simp only [hl] at hw
    exact Option.some.inj hw
  · intro h
    have ht : ∀ i : Fin 4, word (4 + 2 * i.val) = expected (4 + 2 * i.val) ∧
        word (5 + 2 * i.val) = expected (5 + 2 * i.val) := fun i =>
      ⟨h _ (by omega), h _ (by omega)⟩
    simp [ofWords, h 0, h 1, h 2, h 3, ht]

/-- Regions with the same first words hold the same header. -/
theorem get_congr {w v : Words} (h : ∀ i : Nat, i < 12 → v[i]? = w[i]?) :
    (Record.get v 0 : RecordHeader) = Record.get w 0 := by
  show ofWords (fun j => v.getD (12 * 0 + j) 0) = ofWords fun j => w.getD (12 * 0 + j) 0
  simp only [Nat.mul_zero, Nat.zero_add, ofWords_eq_iff]
  exact fun i hi => Record.getD_of_getElem?_eq (h i hi)

/-- Headers agree but for the epoch if their words do but for that one. -/
theorem with_epoch_eq_iff {word expected : Nat → UInt64} :
    { ofWords word with epoch := expected 2 } = ofWords expected ↔
      ∀ i : Nat, i < 12 → i ≠ 2 → word i = expected i := by
  have hword : { ofWords word with epoch := expected 2 } =
      ofWords fun i => if i = 2 then expected 2 else word i := by
    have h4 (i : Fin 4) : 4 + 2 * i.val ≠ 2 := by omega
    have h5 (i : Fin 4) : 5 + 2 * i.val ≠ 2 := by omega
    simp [ofWords, h4, h5]
  rw [hword, ofWords_eq_iff]
  constructor
  · intro h i hi hne
    simpa [hne] using h i hi
  · intro h i hi
    split
    · next he => rw [he]
    · next hne => exact h i hi hne

/-- The words that a header of this layout should have. -/
def prescribed (tag : UInt64) (total : Nat) (children : List Block) (i : Nat) : UInt64 :=
  (make tag total children).toWords.toArray.getD i 0

/-- The words that are prescribed are those of the header that is made. -/
theorem ofWords_prescribed (tag : UInt64) (total : Nat) (children : List Block) :
    ofWords (prescribed tag total children) = make tag total children := by
  have h := LawfulRecord.get_set_self (.replicate 12 0) 0 (make tag total children) (by decide)
  have hset : (Record.set (.replicate 12 0) 0 (make tag total children) : Words) =
      (make tag total children).toWords.toArray :=
    Words.paste_zero (by simp [length_toWords])
  rw [hset] at h
  refine Eq.trans ?_ h
  show _ = ofWords fun j => _
  simp only [Nat.mul_zero, Nat.zero_add]
  rfl

/-- A header is checked word by word. -/
theorem verify_ofWords (word : Nat → UInt64) (tag : UInt64) (total : Nat)
    (children : List Block) :
    (ofWords word).verify tag total children =
      match flaw? word (prescribed tag total children) with
      | none => .ok ()
      | some part => .error (.header part) := by
  obtain ⟨p, hp⟩ : ∃ p, p = prescribed tag total children := ⟨_, rfl⟩
  have hmake : make tag total children = ofWords p := by rw [hp, ofWords_prescribed]
  have hsame : (∀ i : Nat, i < 12 → i ≠ 2 → word i = p i) ↔ word 0 = p 0 ∧ word 1 = p 1 ∧
      (ofWords word).children = (ofWords p).children ∧
      (ofWords word).table = (ofWords p).table := by
    rw [← with_epoch_eq_iff, mk.injEq]
    exact ⟨fun ⟨h0, h1, _, hc⟩ => ⟨h0, h1, hc⟩, fun ⟨h0, h1, hc⟩ => ⟨h0, h1, rfl, hc⟩⟩
  have htag : (ofWords word).tag = word 0 ∧ (ofWords p).tag = p 0 := ⟨rfl, rfl⟩
  have htotal : (ofWords word).total = word 1 ∧ (ofWords p).total = p 1 := ⟨rfl, rfl⟩
  rw [verify, hmake, ← hp, flaw?]
  simp only [hsame, htag, htotal]
  by_cases h0 : word 0 = p 0
  · by_cases h1 : word 1 = p 1
    · by_cases ht : (ofWords word).children = (ofWords p).children ∧
          (ofWords word).table = (ofWords p).table
      · simp [h0, h1, ht]
      · have hor := Decidable.not_and_iff_or_not.1 ht
        simp [h0, h1, ht, hor]
    · simp [h0, h1]
  · simp [h0]

/-! ## Which layout the words were written for -/

/-- A layout that a header can describe: all its numbers fit into words, and all its
blocks into the table. -/
structure Describable (total : Nat) (children : List Block) : Prop where
  total_lt : total < 2 ^ 64
  length_le : children.length ≤ 4
  offset_lt (b : Block) (hb : b ∈ children) : b.offset < 2 ^ 64
  len_lt (b : Block) (hb : b ∈ children) : b.len < 2 ^ 64

theorem ofNat_inj_of_lt {m n : Nat} (hm : m < 2 ^ 64) (hn : n < 2 ^ 64)
    (h : UInt64.ofNat m = UInt64.ofNat n) : m = n := by
  have htoNat := congrArg UInt64.toNat h
  simp only [UInt64.toNat_ofNat'] at htoNat
  omega

section Describable

variable {total total' : Nat} {children children' : List Block}

/-- Blocks are told apart by their rows, and lists of them by how many rows are in use. -/
theorem Describable.children_eq (h : Describable total children)
    (h' : Describable total' children') (tag tag' : UInt64)
    (hcount : (make tag total children).children = (make tag' total' children').children)
    (htable : (make tag total children).table = (make tag' total' children').table) :
    children = children' := by
  have hle := h.length_le
  have hle' := h'.length_le
  have hlen : children.length = children'.length :=
    ofNat_inj_of_lt (by omega) (by omega) hcount
  apply List.ext_getElem hlen
  intro i hi hi'
  have hrow := congrArg (fun table : Vector HeaderEntry 4 => table[i]?) htable
  have hi4 : i < 4 := by omega
  simp only [make, Vector.getElem?_ofFn, hi4, dif_pos, List.getElem?_eq_getElem hi,
    List.getElem?_eq_getElem hi', Option.map_some, Option.getD_some, entry, Option.some.injEq,
    HeaderEntry.mk.injEq] at hrow
  have hmem := List.getElem_mem hi
  have hmem' := List.getElem_mem hi'
  have hoffset := ofNat_inj_of_lt (h.offset_lt _ hmem) (h'.offset_lt _ hmem') hrow.1
  have hlength := ofNat_inj_of_lt (h.len_lt _ hmem) (h'.len_lt _ hmem') hrow.2
  exact Block.mk.injEq .. ▸ ⟨hoffset, hlength⟩

/-- All that a header verifies against. -/
theorem verify_eq_ok_iff {h : RecordHeader} {tag : UInt64} :
    h.verify tag total children = .ok () ↔ h.tag = tag ∧ h.total = UInt64.ofNat total ∧
      h.children = (make tag total children).children ∧
      h.table = (make tag total children).table := by
  rw [verify]
  by_cases htag : h.tag = tag
  · by_cases htotal : h.total = UInt64.ofNat total
    · by_cases hrows : h.children = (make tag total children).children ∧
          h.table = (make tag total children).table
      · simp [make, htag, htotal, hrows]
      · have hor := Decidable.not_and_iff_or_not.1 hrows
        rw [if_neg (fun hne => hne htag), if_neg (fun hne => hne htotal), if_pos hor]
        simp [hrows]
    · simp [make, htag, htotal]
  · simp [make, htag]

/-- A header verifies against the layout it was made for and against no other. -/
theorem verify_make_eq_ok_iff (h : Describable total children)
    (h' : Describable total' children') (tag tag' epoch : UInt64) :
    { make tag total children with epoch }.verify tag' total' children' = .ok () ↔
      tag = tag' ∧ total = total' ∧ children = children' := by
  constructor
  · intro hok
    obtain ⟨htag, htotal, hcount, htable⟩ := verify_eq_ok_iff.1 hok
    exact ⟨htag, ofNat_inj_of_lt h.total_lt h'.total_lt htotal,
      h.children_eq h' tag tag' hcount htable⟩
  · rintro ⟨rfl, rfl, rfl⟩
    exact verify_make tag total children epoch

end Describable

section Written

/-- A region has room for a header from twelve words on. -/
theorem bytes_le_byteSize_iff {w : Words} :
    1 * Record.bytes RecordHeader ≤ Words.byteSize w ↔ 12 ≤ w.size := by
  show 1 * (8 * 12) ≤ w.size * 8 ↔ _
  omega

/-- From twelve words on, a header is read. -/
theorem read_of_le {w : Words} (hw : 12 ≤ w.size) :
    Record.read RecordHeader w = .ok (Record.get w 0) := by
  rw [Record.read, (Record.check_eq_ok_iff w 1).2 (bytes_le_byteSize_iff.2 hw)]
  rfl

variable (tag : UInt64) (total : Nat) (children : List Block) (epoch : UInt64)

/-- The words of a header at an epoch are those that its layout prescribes, but for that
of the epoch. -/
theorem getElem?_set_make {w : Words} (hw : 12 ≤ w.size) {i : Nat} (hi : i < 12) :
    (Record.set w 0 { make tag total children with epoch })[i]? =
      some (if i = 2 then epoch else prescribed tag total children i) := by
  rw [← ofWords_prescribed]
  show (Words.paste w 0 (toWords _).toArray)[i]? = _
  rw [← Nat.zero_add i, Words.getElem?_paste_add _ _ _ _ (by omega) (by simpa [length_toWords]),
    toWords_ofWords_with_epoch]
  simp [hi]

/-- What a region holds once a header is written to its front: the header and else what it
held.  The header verifies against this layout and no other, and ceases to when a
word other than the epoch's changes, be it in one bit. -/
structure Identifies (w v : Words) : Prop where
  read_eq : Record.read RecordHeader v = .ok { make tag total children with epoch }
  size_eq : v.size = w.size
  getElem?_eq (i : Nat) (hi : 12 ≤ i) : v[i]? = w[i]?
  verify_iff (tag' : UInt64) (total' : Nat) (children' : List Block)
    (h : Describable total' children') :
    { make tag total children with epoch }.verify tag' total' children' = .ok () ↔
      tag = tag' ∧ total = total' ∧ children = children'
  altered (u : Words) (hu : 12 ≤ u.size) (i : Nat) (hi : i < 12) (hne : i ≠ 2)
    (h : u[i]? ≠ v[i]?) :
    ∃ header part, Record.read RecordHeader u = .ok header ∧
      header.verify tag total children = .error (.header part)
  flipped (i : Nat) (hi : i < 12) (hne : i ≠ 2) (mask : UInt64) (hmask : mask ≠ 0) :
    ∃ header part, Record.read RecordHeader (v.modify i fun word => word ^^^ mask) = .ok header ∧
      header.verify tag total children = .error (.header part)

variable {tag total children epoch}

/-- A header read from a region is refused if one of its words, other than the epoch's, is
not the one prescribed. -/
theorem exists_verify_eq_error {u : Words} (hu : 12 ≤ u.size) {i : Nat} (hi : i < 12)
    (hne : i ≠ 2) (h : u[i]? ≠ some (prescribed tag total children i)) :
    ∃ header part, Record.read RecordHeader u = .ok header ∧
      header.verify tag total children = .error (.header part) := by
  have hget : (Record.get u 0 : RecordHeader) = ofWords fun i => u.getD i 0 := by
    show ofWords (fun i => u.getD (12 * 0 + i) 0) = _
    simp
  have hword : u.getD i 0 ≠ prescribed tag total children i := by
    have hin : i < u.size := by omega
    simpa [hin] using h
  have hflaw : flaw? (fun i => u.getD i 0) (prescribed tag total children) ≠ none :=
    fun hnone => hword (flaw?_eq_none_iff.1 hnone i hi hne)
  obtain ⟨part, hpart⟩ := Option.ne_none_iff_exists'.1 hflaw
  refine ⟨_, part, read_of_le hu, ?_⟩
  rw [hget, verify_ofWords, hpart]

theorem xor_ne_self {word mask : UInt64} (h : mask ≠ 0) : word ^^^ mask ≠ word := by
  intro heq
  apply h
  calc mask = word ^^^ (word ^^^ mask) := by
        rw [← UInt64.xor_assoc, UInt64.xor_self, UInt64.zero_xor]
    _ = 0 := by rw [heq, UInt64.xor_self]

/-- A header is written to regions that have room for it, and tells its layout from all
others by the words it leaves there. -/
theorem identifies_write (h : Describable total children) (tag epoch : UInt64) (w : Words) :
    (w.size < 12 → Record.write w { make tag total children with epoch } =
      .error (.cast (Words.byteSize w) (Record.name RecordHeader))) ∧
    (12 ≤ w.size → ∃ v, Record.write w { make tag total children with epoch } = .ok v ∧
      Identifies tag total children epoch w v) := by
  constructor
  · intro hw
    have hshort := mt bytes_le_byteSize_iff.1 (Nat.not_le.2 hw)
    rw [Record.write, Record.check, if_pos (Nat.not_le.1 hshort)]
    rfl
  · intro hw
    have hlen := bytes_le_byteSize_iff.2 hw
    have hsize : (Record.set w 0 { make tag total children with epoch }).size = w.size :=
      LawfulRecord.size_set ..
    have hprescribed {i : Nat} (hi : i < 12) (hne : i ≠ 2) :
        (Record.set w 0 { make tag total children with epoch })[i]? =
          some (prescribed tag total children i) := by
      rw [getElem?_set_make tag total children epoch hw hi, if_neg hne]
    refine ⟨Record.set w 0 { make tag total children with epoch }, ?_, ?_, hsize, ?_, ?_, ?_, ?_⟩
    · rw [Record.write, (Record.check_eq_ok_iff w 1).2 hlen]
      rfl
    · rw [read_of_le (by omega), LawfulRecord.get_set_self _ _ _ (by simpa using hlen)]
    · intro i hi
      exact Words.getElem?_paste_of_outside _ _ _ _ (.inr (by simpa [length_toWords] using hi))
    · intro tag' total' children' h'
      exact verify_make_eq_ok_iff h h' tag tag' epoch
    · intro u hu i hi hne hother
      exact exists_verify_eq_error hu hi hne (by rwa [← hprescribed hi hne])
    · intro i hi hne mask hmask
      refine exists_verify_eq_error (by simpa [hsize] using hw) hi hne ?_
      rw [Array.getElem?_modify, if_pos rfl, hprescribed hi hne, Option.map_some, ne_eq,
        Option.some.injEq]
      exact xor_ne_self hmask

/-- A block of no bytes at the front, listed last, is told apart from no block. -/
theorem identifies_write_emptyBlock :
    Describable 112 [⟨96, 10⟩] ∧ Describable 112 [⟨96, 10⟩, ⟨0, 0⟩] ∧
      ∃ v, Record.write (.zeroed 104) { make 7 112 [⟨96, 10⟩] with epoch := 5 } = .ok v ∧
        Identifies 7 112 [⟨96, 10⟩] 5 (.zeroed 104) v ∧
        { make 7 112 [⟨96, 10⟩] with epoch := 5 }.verify 7 112 [⟨96, 10⟩, ⟨0, 0⟩] ≠ .ok () := by
  have h : Describable 112 [⟨96, 10⟩] := ⟨by decide, by decide, by decide, by decide⟩
  have h' : Describable 112 [⟨96, 10⟩, ⟨0, 0⟩] := ⟨by decide, by decide, by decide, by decide⟩
  obtain ⟨v, hwrite, hv⟩ := (identifies_write h 7 5 (.zeroed 104)).2 (by decide)
  refine ⟨h, h', v, hwrite, hv, fun hok => ?_⟩
  have heq := ((hv.verify_iff 7 112 _ h').1 hok).2.2
  simp at heq

end Written

end RecordHeader

end StageQp
