/-
A flat memory behind the data cache.

* `flat` — the bytes of a flat memory after a sequence of accesses;
* `stored` — the bytes that the stores have left in the cache: a byte of the line that was
  installed last;
* `byteOf_merged` — `mae_output` merges the bytes of a store, but for a half word in the upper half;
* `holds_merge` — a store keeps the way right about the stored bytes.
-/
import RiVerSoC.Dcache

namespace RiVerSoC

namespace Dcache

/-! ### Bytes -/

/-- The byte of a word that is at the address. -/
def byteOf (w : BitVec 32) (b : BitVec 32) : BitVec 8 := w.extractLsb' (8 * (b &&& 3#32).toNat) 8

/-- The access is to the byte. -/
def Access.covers (a : Access) (b : BitVec 32) : Prop :=
  a.adr.toNat ≤ b.toNat ∧ b.toNat < a.adr.toNat + accessBytes a.size

instance (a : Access) (b : BitVec 32) : Decidable (a.covers b) :=
  inferInstanceAs (Decidable (_ ∧ _))

/-- A half word in the upper half of its word, for which the mask of `mae_output` has no case. -/
def Access.upperHalf (a : Access) : Prop := a.size = 1 ∧ a.adr &&& 3#32 = 2

instance (a : Access) : Decidable a.upperHalf := inferInstanceAs (Decidable (_ ∧ _))

/-- The access is to another line with the same index. -/
def Access.displaces (a : Access) (b : BitVec 32) : Prop :=
  (parse a.adr).index = (parse b).index ∧ (parse a.adr).tag ≠ (parse b).tag

instance (a : Access) (b : BitVec 32) : Decidable (a.displaces b) :=
  inferInstanceAs (Decidable (_ ∧ _))

/-- The flat memory after some accesses, the last one first. -/
def flat (ram : Ram) : List Access → BitVec 32 → BitVec 8
  | [], b => byteAt ram b
  | a :: h, b => if a.store = true ∧ a.covers b then byteOf a.data b else flat ram h b

/-- The word of a flat memory. -/
def wordOf (mem : BitVec 32 → BitVec 8) (a : BitVec 32) : BitVec 32 :=
  mem (wordAdr a + 3) ++ mem (wordAdr a + 2) ++ mem (wordAdr a + 1) ++ mem (wordAdr a)

/-- The byte has been stored, and behind that neither a store to another line with the same index
nor a store of an upper half has come. -/
def stored : List Access → BitVec 32 → Bool
  | [], _ => false
  | a :: h, b =>
    if a.store then
      if a.covers b then !decide a.upperHalf else !decide (a.displaces b) && stored h b
    else stored h b

/-! ### Words and lines -/

theorem toNat_parse (a : BitVec 32) : (parse a).tag.toNat = a.toNat / 2048 ∧
    (parse a).index.toNat = a.toNat / 16 % 128 ∧ (parse a).offset.toNat = a.toNat % 16 := by
  have := a.isLt
  refine ⟨?_, ?_, ?_⟩
  · rw [parse, BitVec.extractLsb'_toNat, Nat.shiftRight_eq_div_pow]
    omega
  · rw [parse, BitVec.extractLsb'_toNat, Nat.shiftRight_eq_div_pow]
  · rw [parse, BitVec.extractLsb'_toNat, Nat.shiftRight_zero]

/-- The bytes of a word are in one line. -/
theorem parse_of_word {a b : BitVec 32} (h : b.toNat / 4 = a.toNat / 4) :
    (parse b).tag = (parse a).tag ∧ (parse b).index = (parse a).index ∧
      (parse b).offset.toNat / 4 = (parse a).offset.toNat / 4 := by
  obtain ⟨hta, hia, hoa⟩ := toNat_parse a
  obtain ⟨htb, hib, hob⟩ := toNat_parse b
  refine ⟨BitVec.eq_of_toNat_eq ?_, BitVec.eq_of_toNat_eq ?_, ?_⟩ <;> omega

/-- A line and a place in it make the word. -/
theorem word_of_parse {a b : BitVec 32} (ht : (parse b).tag = (parse a).tag)
    (hi : (parse b).index = (parse a).index)
    (ho : (parse b).offset.toNat / 4 = (parse a).offset.toNat / 4) :
    b.toNat / 4 = a.toNat / 4 := by
  obtain ⟨hta, hia, hoa⟩ := toNat_parse a
  obtain ⟨htb, hib, hob⟩ := toNat_parse b
  rw [ht] at htb
  rw [hi] at hib
  omega

/-- The place of the word at the address. -/
def Parsed.place (p : Parsed) : ℕ := Dcache.place p.index (p.offset.toNat / 4)

theorem place_eq_iff (p q : Parsed) :
    p.place = q.place ↔ p.index = q.index ∧ p.offset.toNat / 4 = q.offset.toNat / 4 := by
  have := p.offset.isLt
  have := q.offset.isLt
  rw [Parsed.place, Parsed.place, place, place, ← BitVec.toNat_inj]
  omega

variable {a : Access} {b : BitVec 32}

theorem word_of_covers (h : a.covers b) : b.toNat / 4 = a.adr.toNat / 4 := by
  obtain ⟨hle, hlt⟩ := h
  have haligned := a.aligned
  rcases accessBytes_cases a.size with hs | hs | hs <;> rw [hs] at hlt haligned <;> omega

/-! ### The bytes of a word -/

theorem byteOf_or (x y b : BitVec 32) : byteOf (x ||| y) b = byteOf x b ||| byteOf y b := by
  ext k hk
  simp [byteOf]

theorem byteOf_and (x y b : BitVec 32) : byteOf (x &&& y) b = byteOf x b &&& byteOf y b := by
  ext k hk
  simp [byteOf]

theorem byteOf_not (x b : BitVec 32) : byteOf (~~~x) b = ~~~byteOf x b := by
  have hlt : (b &&& 3#32).toNat < 4 := by
    rw [toNat_and_three]
    omega
  apply BitVec.eq_of_getLsbD_eq
  intro k hk
  have hbit : 8 * (b &&& 3#32).toNat + k < 32 := by omega
  rw [byteOf, BitVec.getLsbD_extractLsb', BitVec.getLsbD_not, BitVec.getLsbD_not, byteOf,
    BitVec.getLsbD_extractLsb', decide_eq_true hk, decide_eq_true hbit]
  rfl

/-- The bytes of the mask, for an aligned access. -/
theorem extractLsb'_dataMask : ∀ size : BitVec 2, ∀ k < 4, ∀ l < 4, k % accessBytes size = 0 →
    (dataMask size k).extractLsb' (8 * l) 8 =
      if k ≤ l ∧ l < k + accessBytes size ∧ ¬ (size = 1 ∧ k = 2) then BitVec.allOnes 8 else 0 := by
  decide

theorem byteOf_dataMask (hw : b.toNat / 4 = a.adr.toNat / 4) :
    byteOf (dataMask a.size (a.adr &&& 3#32).toNat) b =
      if a.covers b ∧ ¬ a.upperHalf then BitVec.allOnes 8 else 0 := by
  have haligned := a.aligned
  have ha := toNat_and_three a.adr
  have hb := toNat_and_three b
  have hmod : (a.adr &&& 3#32).toNat % accessBytes a.size = 0 := by
    rw [ha]
    rcases accessBytes_cases a.size with hs | hs | hs <;> rw [hs] at haligned ⊢ <;> omega
  have hhalf : a.upperHalf ↔ a.size = 1 ∧ (a.adr &&& 3#32).toNat = 2 := by
    rw [Access.upperHalf, ← BitVec.toNat_inj (x := a.adr &&& 3#32)]
    rfl
  have hcovers : a.covers b ↔ (a.adr &&& 3#32).toNat ≤ (b &&& 3#32).toNat ∧
      (b &&& 3#32).toNat < (a.adr &&& 3#32).toNat + accessBytes a.size := by
    rw [Access.covers, ha, hb]
    constructor <;> rintro ⟨h1, h2⟩ <;> constructor <;> omega
  rw [byteOf, extractLsb'_dataMask a.size _ (by omega) _ (by omega) hmod]
  refine if_congr ?_ rfl rfl
  rw [hcovers, hhalf, and_assoc]

/-- The bytes of the access are those of its data, where the mask has them. -/
theorem byteOf_merged {s : Sig} (hp : s.port = a.port) (w : Way)
    (hw : b.toNat / 4 = a.adr.toNat / 4) : byteOf (merged s w) b =
      if a.covers b ∧ ¬ a.upperHalf then byteOf a.data b
      else byteOf (w.word (place s.address.index (s.address.offset.toNat / 4))) b := by
  have hmask := byteOf_dataMask hw
  rw [merged, hp]
  change byteOf (_ &&& ~~~dataMask a.size (a.adr &&& 3#32).toNat |||
    a.data &&& dataMask a.size (a.adr &&& 3#32).toNat) b = _
  rw [byteOf_or, byteOf_and, byteOf_and, byteOf_not, hmask]
  split_ifs
  · rw [BitVec.not_allOnes, BitVec.and_zero, BitVec.zero_or, BitVec.and_allOnes]
  · rw [show (~~~0 : BitVec 8) = BitVec.allOnes 8 from rfl, BitVec.and_allOnes,
      show (0 : BitVec 8) = 0#8 from rfl, BitVec.and_zero, BitVec.or_zero]

theorem toNat_wordAdr_add (adr : BitVec 32) {k : BitVec 32} (hk : k.toNat < 4) :
    (wordAdr adr + k).toNat = 4 * (adr.toNat / 4) + k.toNat := by
  have := adr.isLt
  rw [BitVec.toNat_add, toNat_wordAdr]
  omega

/-- A word is put together from its bytes. -/
theorem eq_wordOf {mem : BitVec 32 → BitVec 8} {x adr : BitVec 32}
    (h : ∀ b : BitVec 32, b.toNat / 4 = adr.toNat / 4 → byteOf x b = mem b) :
    x = wordOf mem adr := by
  have hbyte : ∀ k : BitVec 32, k.toNat < 4 →
      mem (wordAdr adr + k) = x.extractLsb' (8 * k.toNat) 8 := by
    intro k hk
    have hsum := toNat_wordAdr_add adr hk
    rw [← h _ (by omega), byteOf, toNat_and_three, hsum]
    congr 2
    omega
  have h0 : mem (wordAdr adr) = x.extractLsb' 0 8 := by
    have hzero := hbyte 0 (by decide)
    rwa [show wordAdr adr + 0 = wordAdr adr from BitVec.add_zero _] at hzero
  have h1 : mem (wordAdr adr + 1) = x.extractLsb' 8 8 := hbyte 1 (by decide)
  have h2 : mem (wordAdr adr + 2) = x.extractLsb' 16 8 := hbyte 2 (by decide)
  have h3 : mem (wordAdr adr + 3) = x.extractLsb' 24 8 := hbyte 3 (by decide)
  rw [wordOf, h0, h1, h2, h3,
    BitVec.extractLsb'_append_extractLsb'_eq_extractLsb' (show 24 = 16 + 8 from rfl),
    BitVec.extractLsb'_append_extractLsb'_eq_extractLsb' (show 16 = 8 + 8 from rfl),
    BitVec.extractLsb'_append_extractLsb'_eq_extractLsb' (show 8 = 0 + 8 from rfl)]
  exact BitVec.extractLsb'_eq_self.symm

/-! ### The way behind the stores -/

/-- The way has every stored byte. -/
def Holds (ram : Ram) (w : Way) (h : List Access) : Prop :=
  ∀ b, stored h b = true → w.has (parse b) = true ∧ byteOf (w.word (parse b).place) b = flat ram h b

theorem holds_nil (ram : Ram) (w : Way) : Holds ram w [] := fun _ h => absurd h Bool.false_ne_true

/-- Installing the line that is there changes nothing. -/
theorem install_of_has {w : Way} {p : Parsed} (h : w.has p = true) :
    w.install p.index p.tag = w := by
  rw [Way.has, Bool.and_eq_true, beq_iff_eq] at h
  rw [Way.install, h.1, ← h.2, Function.update_eq_self, Function.update_eq_self]

theorem flat_of_not_covers {ram : Ram} {h : List Access} (hc : ¬ a.covers b) :
    flat ram (a :: h) b = flat ram h b := by
  rw [flat, if_neg fun hsc => hc hsc.2]

/-- What is left of the stored bytes when a store comes. -/
theorem stored_cons (hs : a.store = true) {h : List Access} (hb : stored (a :: h) b = true) :
    a.covers b ∧ ¬ a.upperHalf ∨ ¬ a.covers b ∧ ¬ a.displaces b ∧ stored h b = true := by
  rw [stored, if_pos hs] at hb
  by_cases hc : a.covers b
  · rw [if_pos hc, Bool.not_eq_true', decide_eq_false_iff_not] at hb
    exact .inl ⟨hc, hb⟩
  · rw [if_neg hc, Bool.and_eq_true, Bool.not_eq_true', decide_eq_false_iff_not] at hb
    exact .inr ⟨hc, hb⟩

/-- A store that is merged into its line, which is installed, keeps the way right. -/
theorem holds_merge {ram : Ram} {s : Sig} {h : List Access} {w : Way} (hs : a.store = true)
    (hp : s.port = a.port) (hadr : s.address = parse a.adr) (hold : Holds ram w h) :
    Holds ram ((merge s w).install s.address.index s.address.tag) (a :: h) := by
  have hword : ∀ q, ((merge s w).install s.address.index s.address.tag).word q =
      if q = s.address.place then merged s w else w.word q := fun q => Function.update_apply ..
  have hhas : ∀ q : Parsed, ((merge s w).install s.address.index s.address.tag).has q =
      if q.index = s.address.index then q.tag == s.address.tag else w.has q := by
    intro q
    change (q.tag == Function.update w.tag s.address.index s.address.tag q.index &&
      Function.update w.lineValidate s.address.index true q.index) = _
    rw [Function.update_apply, Function.update_apply]
    split_ifs
    · rw [Bool.and_true]
    · rfl
  intro b hb
  rw [hhas, hword, hadr]
  rcases stored_cons hs hb with ⟨hc, hhalf⟩ | ⟨hc, hdis, hb⟩
  · -- the store has the byte
    have hsame := word_of_covers hc
    obtain ⟨ht, hi, ho⟩ := parse_of_word hsame
    rw [if_pos hi, ht, beq_self_eq_true, if_pos ((place_eq_iff _ _).mpr ⟨hi, ho⟩),
      byteOf_merged hp w hsame, if_pos ⟨hc, hhalf⟩, flat, if_pos ⟨hs, hc⟩]
    exact ⟨rfl, rfl⟩
  · obtain ⟨hin, hbyte⟩ := hold b hb
    rw [flat_of_not_covers hc, ← hbyte]
    refine ⟨?_, ?_⟩
    · by_cases hi : (parse b).index = (parse a.adr).index
      · rw [if_pos hi, beq_iff_eq]
        by_contra ht
        exact hdis ⟨hi.symm, fun ht' => ht ht'.symm⟩
      · rw [if_neg hi]
        exact hin
    · by_cases hplace : (parse b).place = (parse a.adr).place
      · -- a byte of the word that the store leaves alone
        obtain ⟨hi, ho⟩ := (place_eq_iff _ _).mp hplace
        have ht : (parse b).tag = (parse a.adr).tag := by
          by_contra ht
          exact hdis ⟨hi.symm, fun ht' => ht ht'.symm⟩
        rw [if_pos hplace, byteOf_merged hp w (word_of_parse ht hi ho), if_neg fun h => hc h.1,
          hadr, hplace]
        rfl
      · rw [if_neg hplace]

/-- A store that is made once more changes nothing. -/
theorem holds_again {ram : Ram} {h : List Access} {w : Way} (hs : a.store = true)
    (hold : Holds ram w (a :: a :: h)) : Holds ram w (a :: h) := by
  intro b hb
  have hagain : stored (a :: a :: h) b = true := by
    rw [stored, if_pos hs]
    rcases stored_cons hs hb with ⟨hc, hhalf⟩ | ⟨hc, hdis, -⟩
    · rw [if_pos hc, decide_eq_false hhalf]
      rfl
    · rw [if_neg hc, decide_eq_false hdis, hb]
      rfl
  obtain ⟨hin, hbyte⟩ := hold b hagain
  refine ⟨hin, hbyte.trans ?_⟩
  by_cases hc : a.covers b
  · rw [flat, flat, if_pos ⟨hs, hc⟩, if_pos ⟨hs, hc⟩]
  · exact flat_of_not_covers hc

/-- A load leaves the stored bytes and the flat memory alone. -/
theorem stored_load (hs : a.store = false) (h : List Access) : stored (a :: h) = stored h := by
  funext b
  rw [stored, hs, if_neg Bool.false_ne_true]

theorem flat_load (hs : a.store = false) (ram : Ram) (h : List Access) :
    flat ram (a :: h) = flat ram h := by
  funext b
  rw [flat, hs, if_neg fun hc => Bool.false_ne_true hc.1]

/-- A load of a word whose bytes are stored finds the word of the flat memory. -/
theorem word_of_holds {ram : Ram} {h : List Access} {w : Way} {adr : BitVec 32}
    (hold : Holds ram w h) (hb : ∀ b : BitVec 32, b.toNat / 4 = adr.toNat / 4 → stored h b = true) :
    w.has (parse adr) = true ∧ w.word (parse adr).place = wordOf (flat ram h) adr := by
  refine ⟨(hold adr (hb adr rfl)).1, eq_wordOf fun b hw => ?_⟩
  obtain ⟨-, hi, ho⟩ := parse_of_word hw
  rw [← (place_eq_iff _ _).mpr ⟨hi, ho⟩]
  exact (hold b (hb b hw)).2

end Dcache

end RiVerSoC
