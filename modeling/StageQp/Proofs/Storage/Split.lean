import Mathlib
import StageQp.Proofs.Procedure
import StageQp.Proofs.Storage.Tiling

/-!
# StageQp.Proofs.Storage.Split

What a split hands out, and when.  The blocks are gone through by offset, equal offsets
in the order given (`Block.Before`); one that starts before the end of another that was
gone through earlier is `Overlapped`.  Cutting the region front to back never needs more
words than are left, and comes to the same as checking the blocks and giving each the
view of its span (`views_eq`).

From that: blocks that fit are handed out exactly if none is overlapped; else the fault
is that of the first block that does not fit, and then of the first one that is
overlapped (`Refused`).  What is handed out are the words of the spans, no word twice,
and what is written there comes to stand there and nowhere else (`HandsOut`).
`views_exact` says it of every region and every list of blocks.
-/

namespace StageQp

variable {n : Nat}

/-! ## The entries of a vector, one by one -/

section Entries

variable {α β : Type} {xs : Vector α n} {ys : Vector β n}

theorem forall_mem_toList {P : α → Prop} : (∀ x ∈ xs.toList, P x) ↔ ∀ i, P (xs.get i) := by
  simp only [Vector.mem_toList_iff, Vector.forall_mem_iff_forall_getElem, Fin.forall_iff]
  rfl

theorem forall₂_toList {R : α → β → Prop} :
    List.Forall₂ R xs.toList ys.toList ↔ ∀ i, R (xs.get i) (ys.get i) := by
  simp only [List.forall₂_iff_get, Vector.length_toList, true_and, Fin.forall_iff]
  exact ⟨fun h i hi => h i hi hi, fun h i hi _ => h i hi⟩

theorem pairwise_toList {R : α → α → Prop} :
    xs.toList.Pairwise R ↔ ∀ i j, i < j → R (xs.get i) (xs.get j) := by
  simp only [List.pairwise_iff_getElem, Vector.length_toList, Fin.forall_iff]
  exact ⟨fun h i hi j hj hij => h i j hi hj hij, fun h i j hi hj hij => h i hi j hj hij⟩

end Entries

/-! ## Views -/

namespace View

/-- The word is one of the view's. -/
def Has (v : View) (i : Nat) : Prop := v.start ≤ i ∧ i < v.start + v.size

@[simp] theorem size_write (v : View) (w part : Words) : (v.write w part).size = w.size := by
  simp [write]

theorem read_congr {v : View} {w u : Words} (hs : u.size = w.size)
    (h : ∀ i, v.Has i → u[i]? = w[i]?) : v.read u = v.read w := by
  apply Array.ext_getElem?
  intro i
  simp only [read, Array.getElem?_extract, hs]
  split
  · next hi => exact h _ ⟨Nat.le_add_right _ _, by omega⟩
  · rfl

/-- What is written to a view is read back. -/
theorem read_write {v : View} {w part : Words} (hv : v.start + v.size ≤ w.size)
    (hp : part.size = v.size) : v.read (v.write w part) = part := by
  apply Array.ext_getElem?
  intro i
  rw [read, Array.getElem?_extract]
  split
  · next hi =>
      rw [size_write] at hi
      exact Words.getElem?_paste_add w part v.start i (by omega) (by omega)
  · next hi =>
      rw [size_write] at hi
      rw [Array.getElem?_eq_none (by omega)]

/-- No other word notices. -/
theorem getElem?_write {v : View} {w part : Words} (hp : part.size = v.size) {i : Nat}
    (hi : ¬v.Has i) : (v.write w part)[i]? = w[i]? :=
  Words.getElem?_paste_of_outside _ _ _ _ (by unfold Has at hi; omega)

/-- Writing to views changes no number of words. -/
theorem size_writeAll (w : Words) (views : List View) (parts : List Words) :
    (writeAll w views parts).size = w.size := by
  induction views generalizing w parts with
  | nil => simp [writeAll]
  | cons v views ih =>
      cases parts with
      | nil => simp [writeAll]
      | cons part parts => simp [writeAll, ih]

section WriteAll

variable {views : List View} {parts : List Words}
  (hsize : List.Forall₂ (fun v part => Array.size part = View.size v) views parts)

include hsize

/-- A word in none of the views is not written. -/
theorem getElem?_writeAll (w : Words) {i : Nat} (hi : ∀ v ∈ views, ¬v.Has i) :
    (writeAll w views parts)[i]? = w[i]? := by
  induction hsize generalizing w with
  | nil => rfl
  | @cons v part views parts hp _ ih =>
      rw [List.forall_mem_cons] at hi
      rw [writeAll, ih _ hi.2, getElem?_write hp hi.1]

/-- Parts written to views with no word in common are all read back. -/
theorem read_writeAll (w : Words) (hin : ∀ v ∈ views, v.start + v.size ≤ w.size)
    (hapart : views.Pairwise fun v u => ∀ i, v.Has i → ¬u.Has i) :
    List.Forall₂ (fun v part => v.read (writeAll w views parts) = part) views parts := by
  induction hsize generalizing w with
  | nil => exact .nil
  | @cons v part views parts hp hsize ih =>
      rw [List.forall_mem_cons] at hin
      rw [List.pairwise_cons] at hapart
      constructor
      · have hkept : v.read (writeAll (v.write w part) views parts) = v.read (v.write w part) :=
          read_congr (size_writeAll _ _ _) fun i hi =>
            getElem?_writeAll hsize _ fun u hu => hapart.1 u hu i hi
        rw [writeAll, hkept, read_write hin.1 hp]
      · exact ih (v.write w part) (by simpa using hin.2) hapart.2

end WriteAll

end View

namespace Block

/-- A view of a block reads its part. -/
theorem read_view (b : Block) (w : Words) : b.view.read w = b.part w := by
  have hle := b.firstWord_le_pastWord
  simp only [view, View.read, part]
  congr 1
  omega

/-- The view of a block that fits has the words of its span. -/
theorem size_view {b : Block} {w : Words} (h : b.Fits w) : b.view.size = b.span / 8 := by
  have hpast := pastWord_eq h.1
  simp only [view]
  omega

/-- The view of a block that fits ends within the words. -/
theorem view_le {b : Block} {w : Words} (h : b.Fits w) :
    b.view.start + b.view.size ≤ w.size := by
  rw [size_view h]
  exact h.words_le

/-! ## The order in which blocks are gone through -/

/-- Block `i` is gone through before block `j`. -/
def Before (blocks : Vector Block n) (i j : Fin n) : Prop :=
  (blocks.get i).offset < (blocks.get j).offset ∨
    (blocks.get i).offset = (blocks.get j).offset ∧ i < j

/-- The block starts before the end of one that is gone through earlier. -/
def Overlapped (blocks : Vector Block n) (j : Fin n) : Prop :=
  ∃ i, Before blocks i j ∧ (blocks.get j).offset < (blocks.get i).stop

variable {blocks : Vector Block n}

/-- Of two blocks only one comes before the other. -/
theorem Before.asymm {i j : Fin n} (h : Before blocks i j) : ¬Before blocks j i := by
  unfold Before at *
  omega

/-- Of two places one comes before the other. -/
theorem before_or_before (blocks : Vector Block n) {i j : Fin n} (h : i ≠ j) :
    Before blocks i j ∨ Before blocks j i := by
  unfold Before
  omega

/-- There is a first block among any. -/
theorem before_wf (blocks : Vector Block n) : WellFounded (Before blocks) := by
  have hlex := WellFounded.prod_lex (wellFounded_lt (α := Nat)) (wellFounded_lt (α := Fin n))
  refine Subrelation.wf ?_ (InvImage.wf (fun i => ((blocks.get i).offset, i)) hlex)
  intro i j h
  exact Prod.lex_def.2 h

/-- Inserting a place adds it and drops none. -/
theorem mem_insertPlace {i k : Fin n} {js : List (Fin n)} :
    k ∈ insertPlace blocks i js ↔ k = i ∨ k ∈ js := by
  induction js with
  | nil => simp [insertPlace]
  | cons j js ih =>
      rw [insertPlace]
      split
      · rw [List.mem_cons, ih, List.mem_cons, or_left_comm]
      · rw [List.mem_cons]

/-- The place of a later block finds its place among those of earlier ones. -/
theorem pairwise_insertPlace {i : Fin n} {js : List (Fin n)} (h : js.Pairwise (Before blocks))
    (hi : ∀ j ∈ js, j < i) : (insertPlace blocks i js).Pairwise (Before blocks) := by
  induction js with
  | nil => simp [insertPlace]
  | cons j js ih =>
      rw [List.forall_mem_cons] at hi
      rw [insertPlace]
      split
      · next hle =>
          rw [List.pairwise_cons] at h ⊢
          refine ⟨fun k hk => ?_, ih h.2 hi.2⟩
          rcases mem_insertPlace.1 hk with rfl | hk
          · have := hi.1
            unfold Before
            omega
          · exact h.1 k hk
      · next hlt =>
          refine List.pairwise_cons.2 ⟨fun k hk => ?_, h⟩
          rcases List.mem_cons.1 hk with rfl | hk
          · exact .inl (by omega)
          · have := List.rel_of_pairwise_cons h hk
            unfold Before at *
            omega

/-- The places of some more blocks find theirs one after the other. -/
theorem insertPlaces_spec {js is : List (Fin n)} (h : js.Pairwise (Before blocks))
    (his : is.Pairwise (· < ·)) (hlt : ∀ j ∈ js, ∀ i ∈ is, j < i) :
    (is.foldl (fun sorted i => insertPlace blocks i sorted) js).Pairwise (Before blocks) ∧
      ∀ k, k ∈ is.foldl (fun sorted i => insertPlace blocks i sorted) js ↔ k ∈ js ∨ k ∈ is := by
  induction is generalizing js with
  | nil => simpa using h
  | cons i is ih =>
      rw [List.pairwise_cons] at his
      have hi : ∀ j ∈ js, j < i := fun j hj => hlt j hj i (List.mem_cons_self ..)
      have hnext : ∀ j ∈ insertPlace blocks i js, ∀ k ∈ is, j < k := by
        intro j hj k hk
        rcases mem_insertPlace.1 hj with rfl | hj
        · exact his.1 k hk
        · exact hlt j hj k (List.mem_cons_of_mem _ hk)
      obtain ⟨hsorted, hmem⟩ := ih (pairwise_insertPlace h hi) his.2 hnext
      refine ⟨hsorted, fun k => ?_⟩
      rw [List.foldl_cons, hmem, mem_insertPlace, List.mem_cons, or_assoc, or_left_comm]

/-- The places are all there, in order. -/
theorem places_spec (blocks : Vector Block n) :
    (places blocks).Pairwise (Before blocks) ∧ ∀ k, k ∈ places blocks := by
  have hnil : ([] : List (Fin n)).Pairwise (Before blocks) := .nil
  obtain ⟨hsorted, hmem⟩ := insertPlaces_spec hnil (List.pairwise_lt_finRange n) (by simp)
  exact ⟨hsorted, fun k => (hmem k).2 (.inr (List.mem_finRange k))⟩

/-- Inserting a place inserts its block by offset. -/
theorem map_insertPlace (blocks : Vector Block n) (i : Fin n) (js : List (Fin n)) :
    (insertPlace blocks i js).map blocks.get =
      insertByOffset (blocks.get i) (js.map blocks.get) := by
  induction js with
  | nil => rfl
  | cons j js ih =>
      rw [insertPlace, List.map_cons, insertByOffset]
      split
      · rw [List.map_cons, ih]
      · rfl

/-- Sorting the places is sorting the blocks. -/
theorem map_places (blocks : Vector Block n) :
    (places blocks).map blocks.get = sortByOffset blocks.toList := by
  have hlist : blocks.toList = (List.finRange n).map blocks.get := by
    apply List.ext_getElem <;> simp [Vector.get_eq_getElem]
  have hfold (is js : List (Fin n)) :
      (is.foldl (fun sorted i => insertPlace blocks i sorted) js).map blocks.get =
        (is.map blocks.get).foldl (fun sorted b => insertByOffset b sorted)
          (js.map blocks.get) := by
    induction is generalizing js with
    | nil => rfl
    | cons i is ih => rw [List.foldl_cons, ih, map_insertPlace, List.map_cons, List.foldl_cons]
  rw [places, hfold, sortByOffset, hlist]
  rfl

end Block

/-! ## Cutting from the front -/

namespace Words

/-- Of views that are set one by one, those in the list are new. -/
theorem get_foldl_set (order : List (Fin n)) (f : Fin n → View) (views : Vector View n)
    (k : Fin n) :
    (order.foldl (fun views i => views.set i.val (f i) i.isLt) views).get k =
      if k ∈ order then f k else views.get k := by
  induction order generalizing views with
  | nil => simp
  | cons i order ih =>
      rw [List.foldl_cons, ih]
      by_cases hk : k ∈ order
      · simp [hk]
      · by_cases hik : i = k
        · simp [hik, Vector.get_eq_getElem]
        · have hne : (i : Nat) ≠ k := fun h => hik (Fin.ext h)
          simp [hk, Ne.symm hik, Vector.get_eq_getElem, Vector.getElem_set_ne _ _ hne]

/-- Where cutting has come to, the next block is checked and given the view of its span. -/
theorem cutViews_eq {size : Nat} (blocks : Vector Block n)
    (hfit : ∀ i : Fin n, (blocks.get i).pastWord ≤ size) (order : List (Fin n)) (rest : View)
    (consumed : Nat) (hrest : consumed + rest.size = size) (views : Vector View n)
    (hstart : rest.start = consumed) :
    cutViews blocks hfit order rest consumed hrest views =
      (Block.checkApart consumed (order.map blocks.get)).map fun _ =>
        order.foldl (fun views i => views.set i.val (blocks.get i).view i.isLt) views := by
  induction order generalizing rest consumed views with
  | nil => rfl
  | cons i order ih =>
      have hle := (blocks.get i).firstWord_le_pastWord
      rw [cutViews, List.map_cons, Block.checkApart]
      split
      · rfl
      · next hlt =>
          have hgap : rest.start + ((blocks.get i).firstWord - consumed) =
              (blocks.get i).firstWord := by
            omega
          rw [ih]
          · simp only [View.cut, Block.view, hgap, List.foldl_cons]
          · simp only [View.cut]
            omega

/-- Views are handed out for the blocks exactly if they can be split. -/
theorem views_eq (w : Words) (blocks : Vector Block n) :
    w.views blocks = (w.checkSplit blocks.toList).map fun _ => blocks.map Block.view := by
  rw [views, checkSplit]
  split
  · next f hall =>
      rw [hall]
      rfl
  · next hall =>
      have hfold : (Block.places blocks).foldl
          (fun views i => views.set i.val (blocks.get i).view i.isLt) (.replicate n ⟨0, 0⟩) =
            blocks.map Block.view := by
        apply Vector.ext
        intro k hk
        have := get_foldl_set (Block.places blocks) (fun i => (blocks.get i).view)
          (.replicate n ⟨0, 0⟩) ⟨k, hk⟩
        simpa [(Block.places_spec blocks).2, Vector.get_eq_getElem] using this
      refine (cutViews_eq _ _ _ _ _ _ _ rfl).trans ?_
      rw [hfold, Block.map_places, hall]
      rfl

/-- Reading the views is reading the blocks, if they pass the checks. -/
theorem split_eq (w : Words) (blocks : List Block) :
    w.split blocks = (w.checkSplit blocks).map fun _ => blocks.map fun b => b.part w := by
  rw [split, views_eq]
  cases h : w.checkSplit blocks with
  | error f =>
      simp only [Vector.toList, Array.toVector, h]
      rfl
  | ok _ =>
      simp only [Vector.toList, Array.toVector, h]
      show Except.ok _ = Except.ok _
      simp [Block.read_view]

end Words

/-! ## When blocks are handed out -/

namespace Block

/-- An aligned block is cut into in words just where it is in bytes. -/
theorem firstWord_lt_pastWord_iff {b c : Block} (hb : b.offset % 8 = 0) :
    c.firstWord < b.pastWord ↔ c.offset < b.stop := by
  have hstop := stop_mod hb
  unfold firstWord pastWord
  omega

/-- Blocks apart in bytes are apart in words. -/
theorem pastWord_le_firstWord {b c : Block} (h : b.stop ≤ c.offset) : b.pastWord ≤ c.firstWord :=
  Nat.div_le_div_right h

/-- The first block that does not pass decides. -/
theorem checkAll_eq_error {capacity : Nat} {bs : List Block} {f : Fault} {i : Nat}
    (hi : i < bs.length) (hfirst : ∀ k (hk : k < i), bs[k].check capacity = .ok ())
    (h : bs[i].check capacity = .error f) : checkAll capacity bs = .error f := by
  induction bs generalizing i with
  | nil => cases hi
  | cons b bs ih =>
      rw [checkAll]
      cases i with
      | zero =>
          rw [List.getElem_cons_zero] at h
          rw [h]
          rfl
      | succ i =>
          have hb := hfirst 0 (Nat.succ_pos i)
          rw [List.getElem_cons_zero] at hb
          rw [hb]
          exact ih (Nat.lt_of_succ_lt_succ hi) (fun k hk => hfirst (k + 1) (Nat.succ_lt_succ hk)) h

/-- Blocks in order and apart pass the check. -/
theorem checkApart_eq_ok {consumed : Nat} {bs : List Block}
    (hfirst : ∀ b ∈ bs, consumed ≤ b.firstWord)
    (hapart : bs.Pairwise fun b c => b.pastWord ≤ c.firstWord) :
    checkApart consumed bs = .ok () := by
  induction bs generalizing consumed with
  | nil => rfl
  | cons b bs ih =>
      rw [List.forall_mem_cons] at hfirst
      rw [List.pairwise_cons] at hapart
      rw [checkApart, if_neg (Nat.not_lt.2 hfirst.1)]
      exact ih hapart.1 hapart.2

/-- The first block that starts too early decides, wherever the blocks in front of it end. -/
theorem checkApart_eq_error {consumed : Nat} {bs cs : List Block} {c : Block}
    (hfirst : ∀ b ∈ bs, consumed ≤ b.firstWord)
    (hapart : bs.Pairwise fun b c => b.pastWord ≤ c.firstWord)
    (h : c.firstWord < consumed ∨ ∃ b ∈ bs, c.firstWord < b.pastWord) :
    checkApart consumed (bs ++ c :: cs) = .error (.overlap c.offset) := by
  induction bs generalizing consumed with
  | nil =>
      have hlt : c.firstWord < consumed := by simpa using h
      rw [List.nil_append, checkApart, if_pos hlt]
  | cons b bs ih =>
      rw [List.forall_mem_cons] at hfirst
      rw [List.pairwise_cons] at hapart
      rw [List.cons_append, checkApart, if_neg (Nat.not_lt.2 hfirst.1)]
      apply ih hapart.1 hapart.2
      have hle := b.firstWord_le_pastWord
      rcases h with hlt | ⟨d, hd, hlt⟩
      · exact .inl (by omega)
      · rcases List.mem_cons.1 hd with rfl | hd
        · exact .inl hlt
        · exact .inr ⟨d, hd, hlt⟩

variable {blocks : Vector Block n}

/-- A block that is not overlapped starts behind all before it. -/
theorem stop_le_of_not_overlapped {i j : Fin n} (h : ¬Overlapped blocks j)
    (hij : Before blocks i j) : (blocks.get i).stop ≤ (blocks.get j).offset := by
  by_contra hlt
  exact h ⟨i, hij, by omega⟩

/-- Without an overlapped block the check passes. -/
theorem checkApart_places_eq_ok (h : ∀ j, ¬Overlapped blocks j) :
    checkApart 0 ((places blocks).map blocks.get) = .ok () := by
  refine checkApart_eq_ok (fun b _ => Nat.zero_le _) (List.pairwise_map.2 ?_)
  exact (places_spec blocks).1.imp fun hij =>
    pastWord_le_firstWord (stop_le_of_not_overlapped (h _) hij)

/-- The check reports the first block that is overlapped. -/
theorem checkApart_places_eq_error {j : Fin n} (halign : ∀ i : Fin n, (blocks.get i).offset % 8 = 0)
    (h : Overlapped blocks j) (hfirst : ∀ k, Before blocks k j → ¬Overlapped blocks k) :
    checkApart 0 ((places blocks).map blocks.get) = .error (.overlap (blocks.get j).offset) := by
  obtain ⟨hsorted, hall⟩ := places_spec blocks
  obtain ⟨front, rest, hplaces⟩ := List.append_of_mem (hall j)
  rw [hplaces, List.pairwise_append, List.pairwise_cons] at hsorted
  obtain ⟨hfront, ⟨hrest, -⟩, hcross⟩ := hsorted
  have hbefore (k : Fin n) (hk : k ∈ front) : Before blocks k j :=
    hcross k hk j (List.mem_cons_self ..)
  obtain ⟨i, hij, hlt⟩ := h
  -- What is gone through earlier stands in front.
  have hi : i ∈ front := by
    have hmem := hall i
    rw [hplaces, List.mem_append, List.mem_cons] at hmem
    rcases hmem with hi | rfl | hi
    · exact hi
    · exact absurd hij hij.asymm
    · exact absurd (hrest i hi) hij.asymm
  rw [hplaces, List.map_append, List.map_cons]
  apply checkApart_eq_error (fun b _ => Nat.zero_le _)
  · refine List.pairwise_map.2 (hfront.imp_of_mem fun _ hk hik => ?_)
    exact pastWord_le_firstWord (stop_le_of_not_overlapped (hfirst _ (hbefore _ hk)) hik)
  · exact .inr ⟨_, List.mem_map_of_mem hi, (firstWord_lt_pastWord_iff (halign i)).2 hlt⟩

end Block

namespace Words

open Block (Before Overlapped)

/-- Why blocks of a region are not handed out together. -/
inductive Refused (w : Words) (blocks : Vector Block n) : Fault → Prop where
  /-- The first block that does not fit starts inside a word. -/
  | misaligned (i : Fin n) (first : ∀ k < i, (blocks.get k).Fits w)
      (h : (blocks.get i).offset % 8 ≠ 0) : Refused w blocks (.misaligned (blocks.get i).offset)
  /-- The first block that does not fit ends past the region. -/
  | outOfBounds (i : Fin n) (first : ∀ k < i, (blocks.get k).Fits w)
      (aligned : (blocks.get i).offset % 8 = 0) (h : Words.byteSize w < (blocks.get i).stop) :
      Refused w blocks (.outOfBounds (blocks.get i).offset (blocks.get i).len (Words.byteSize w))
  /-- All blocks fit, and one is the first that is overlapped. -/
  | overlap (fits : ∀ i : Fin n, (blocks.get i).Fits w) (j : Fin n) (h : Overlapped blocks j)
      (first : ∀ k, Before blocks k j → ¬Overlapped blocks k) :
      Refused w blocks (.overlap (blocks.get j).offset)

/-- What a region holds after the parts of its blocks were written: each part at its block,
and everywhere else what it held. -/
structure Written (w : Words) (blocks : Vector Block n) (parts : Vector Words n) (u : Words) :
    Prop where
  size_eq : u.size = w.size
  part_eq (i : Fin n) : (blocks.get i).part u = parts.get i
  getElem?_eq (x : Nat) (hx : ∀ i : Fin n, ¬(blocks.get i).view.Has x) : u[x]? = w[x]?

/-- What is handed out: to each block, in the order given, the words of its span; no word
twice; and for writing, too. -/
structure HandsOut (w : Words) (blocks : Vector Block n) (views : Vector View n) : Prop where
  size_eq (i : Fin n) : (views.get i).size = (blocks.get i).span / 8
  read_eq (i : Fin n) :
    (views.get i).read w = w.extract ((blocks.get i).offset / 8) ((blocks.get i).stop / 8)
  inside (i : Fin n) : (views.get i).start + (views.get i).size ≤ w.size
  apart (i j : Fin n) (hij : i ≠ j) (x : Nat) (hx : (views.get i).Has x) : ¬(views.get j).Has x
  written (parts : Vector Words n) (h : ∀ i : Fin n, (parts.get i).size = (views.get i).size) :
    Written w blocks parts (View.writeAll w views.toList parts.toList)

section Exact

variable {w : Words} {blocks : Vector Block n}

theorem checkAll_eq_ok (hfit : ∀ i : Fin n, (blocks.get i).Fits w) :
    Block.checkAll (Words.byteSize w) blocks.toList = .ok () := by
  exact Block.checkAll_of_forall (forall_mem_toList.2 fun i => (hfit i).check)

/-- Blocks that fit and are not overlapped get their views. -/
theorem views_eq_ok (hfit : ∀ i : Fin n, (blocks.get i).Fits w) (h : ∀ j, ¬Overlapped blocks j) :
    w.views blocks = .ok (blocks.map Block.view) := by
  have hapart := Block.checkApart_places_eq_ok h
  rw [Block.map_places] at hapart
  rw [Words.views_eq, Words.checkSplit, checkAll_eq_ok hfit, hapart]
  rfl

/-- A refusal is what there is to refuse the blocks with. -/
theorem views_of_refused {f : Fault} (h : Refused w blocks f) : w.views blocks = .error f := by
  have hmisfit (i : Fin n) (first : ∀ k < i, (blocks.get k).Fits w)
      (hcheck : (blocks.get i).check (Words.byteSize w) = .error f) :
      w.views blocks = .error f := by
    have hall : Block.checkAll (Words.byteSize w) blocks.toList = .error f := by
      refine Block.checkAll_eq_error (i := i) (by simp) (fun k hk => ?_) ?_
      · simpa [Vector.get_eq_getElem] using (first ⟨k, by omega⟩ hk).check
      · simpa [Vector.get_eq_getElem] using hcheck
    rw [Words.views_eq, Words.checkSplit, hall]
    rfl
  cases h with
  | misaligned i first h => exact hmisfit i first (if_pos h)
  | outOfBounds i first aligned h =>
      exact hmisfit i first ((if_neg (not_not.2 aligned)).trans (if_pos h))
  | overlap fits j h first =>
      have hapart := Block.checkApart_places_eq_error (fun i => (fits i).1) h first
      rw [Block.map_places] at hapart
      rw [Words.views_eq, Words.checkSplit, checkAll_eq_ok fits, hapart]
      rfl

/-- Blocks that fit and are not overlapped are handed out, and for others there is a first
one that is not to be. -/
theorem fits_or_refused (w : Words) (blocks : Vector Block n) :
    ((∀ i : Fin n, (blocks.get i).Fits w) ∧ ∀ j, ¬Overlapped blocks j) ∨
      ∃ f, Refused w blocks f := by
  by_cases hfit : ∀ i : Fin n, (blocks.get i).Fits w
  · by_cases hover : ∃ j, Overlapped blocks j
    · obtain ⟨j, hj, hmin⟩ := (Block.before_wf blocks).has_min {j | Overlapped blocks j} hover
      exact .inr ⟨_, .overlap hfit j hj fun k hkj hk => hmin k hk hkj⟩
    · exact .inl ⟨hfit, not_exists.1 hover⟩
  · obtain ⟨i, hi, hmin⟩ :=
      (wellFounded_lt (α := Fin n)).has_min {i | ¬(blocks.get i).Fits w} (not_forall.1 hfit)
    have first (k : Fin n) (hk : k < i) : (blocks.get k).Fits w := by
      by_contra hno
      exact hmin k hno hk
    by_cases halign : (blocks.get i).offset % 8 = 0
    · have hpast : Words.byteSize w < (blocks.get i).stop := by
        by_contra hle
        exact hi ⟨halign, Nat.not_lt.1 hle⟩
      exact .inr ⟨_, .outOfBounds i first halign hpast⟩
    · exact .inr ⟨_, .misaligned i first halign⟩

/-- Blocks are refused with a fault exactly if it is there. -/
theorem views_eq_error_iff {f : Fault} : w.views blocks = .error f ↔ Refused w blocks f := by
  constructor
  · intro h
    rcases fits_or_refused w blocks with ⟨hfit, hover⟩ | ⟨g, hg⟩
    · rw [views_eq_ok hfit hover] at h
      cases h
    · have hfg : f = g := by simpa [views_of_refused hg] using h.symm
      exact hfg ▸ hg
  · exact views_of_refused

/-- Blocks get views exactly if they fit and none is overlapped. -/
theorem views_eq_ok_iff {views : Vector View n} : w.views blocks = .ok views ↔
    views = blocks.map Block.view ∧ (∀ i : Fin n, (blocks.get i).Fits w) ∧
      ∀ j, ¬Overlapped blocks j := by
  constructor
  · intro h
    rcases fits_or_refused w blocks with ⟨hfit, hover⟩ | ⟨g, hg⟩
    · rw [views_eq_ok hfit hover, Except.ok.injEq] at h
      exact ⟨h.symm, hfit, hover⟩
    · rw [views_of_refused hg] at h
      cases h
  · rintro ⟨rfl, hfit, hover⟩
    exact views_eq_ok hfit hover

/-! ## What is handed out -/

/-- Blocks that are not overlapped have no word in common. -/
theorem views_apart (h : ∀ j, ¬Overlapped blocks j) {i j : Fin n} (hij : i ≠ j) {x : Nat}
    (hx : (blocks.get i).view.Has x) : ¬(blocks.get j).view.Has x := by
  have hi := (blocks.get i).firstWord_le_pastWord
  have hj := (blocks.get j).firstWord_le_pastWord
  simp only [View.Has, Block.view] at *
  rcases Block.before_or_before blocks hij with hbefore | hbefore
  · have := Block.pastWord_le_firstWord (Block.stop_le_of_not_overlapped (h j) hbefore)
    omega
  · have := Block.pastWord_le_firstWord (Block.stop_le_of_not_overlapped (h i) hbefore)
    omega

/-- What is written to the views is in the blocks, and nothing else has changed. -/
theorem written_writeAll (hfit : ∀ i : Fin n, (blocks.get i).Fits w) (h : ∀ j, ¬Overlapped blocks j)
    {parts : Vector Words n} (hsize : ∀ i : Fin n, (parts.get i).size = (blocks.get i).view.size) :
    Written w blocks parts (View.writeAll w (blocks.map Block.view).toList parts.toList) := by
  have hpaired : List.Forall₂ (fun v part => Array.size part = View.size v)
      (blocks.map Block.view).toList parts.toList := by
    refine forall₂_toList.2 fun i => ?_
    rw [hsize, Vector.get_map]
  have hin : ∀ v ∈ (blocks.map Block.view).toList, v.start + v.size ≤ w.size := by
    refine forall_mem_toList.2 fun i => ?_
    rw [Vector.get_map]
    exact Block.view_le (hfit i)
  have hapart : (blocks.map Block.view).toList.Pairwise fun v u => ∀ x, v.Has x → ¬u.Has x := by
    refine pairwise_toList.2 fun i j hij x hx => ?_
    rw [Vector.get_map] at hx ⊢
    exact views_apart h (Fin.ne_of_lt hij) hx
  constructor
  · exact View.size_writeAll _ _ _
  · intro i
    have hread := forall₂_toList.1 (View.read_writeAll hpaired w hin hapart) i
    rwa [Vector.get_map, Block.read_view] at hread
  · intro x hx
    refine View.getElem?_writeAll hpaired w (forall_mem_toList.2 fun i => ?_)
    rw [Vector.get_map]
    exact hx i

/-- Blocks that fit and are not overlapped are handed out apart from each other. -/
theorem handsOut_views (hfit : ∀ i : Fin n, (blocks.get i).Fits w) (h : ∀ j, ¬Overlapped blocks j) :
    HandsOut w blocks (blocks.map Block.view) := by
  constructor
  · intro i
    rw [Vector.get_map, Block.size_view (hfit i)]
  · intro i
    rw [Vector.get_map, Block.read_view]
    rfl
  · intro i
    rw [Vector.get_map]
    exact Block.view_le (hfit i)
  · intro i j hij x
    rw [Vector.get_map, Vector.get_map]
    exact views_apart h hij
  · intro parts hsize
    exact written_writeAll hfit h fun i => by rw [hsize, Vector.get_map]

/-- What a split of a region answers, for all blocks.  They are handed out exactly if all
of them fit and none is overlapped; else the answer is the fault of the first one that
does not fit, or of the first that is overlapped, and the region stays as it is. -/
theorem views_exact (w : Words) (blocks : Vector Block n) :
    ((∃ views, w.views blocks = .ok views) ↔
      (∀ i : Fin n, (blocks.get i).Fits w) ∧ ∀ j, ¬Overlapped blocks j) ∧
    (∀ f, w.views blocks = .error f ↔ Refused w blocks f) ∧
    (∀ views, w.views blocks = .ok views → HandsOut w blocks views) ∧
    ∀ (parts : Vector Words n) (journal : Journal),
      (Procedure.rewrite blocks parts).outcome w journal =
        match w.views blocks with
        | .ok views => (.ok (), ⟨View.writeAll w views.toList parts.toList, journal⟩)
        | .error f => (.error (.fault f), ⟨w, journal⟩) := by
  refine ⟨⟨?_, ?_⟩, fun f => views_eq_error_iff, ?_, ?_⟩
  · rintro ⟨views, h⟩
    exact (views_eq_ok_iff.1 h).2
  · rintro ⟨hfit, hover⟩
    exact ⟨_, views_eq_ok hfit hover⟩
  · intro views h
    obtain ⟨rfl, hfit, hover⟩ := views_eq_ok_iff.1 h
    exact handsOut_views hfit hover
  · intro parts journal
    simp only [Procedure.rewrite, Procedure.outcome_bind, Procedure.outcome_fetch]
    cases w.views blocks with
    | ok views => simp
    | error f => simp

end Exact

end Words

end StageQp
