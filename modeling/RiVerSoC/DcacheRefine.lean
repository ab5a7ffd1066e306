/-
The data cache against the flat memory.

The cache installs the line of a store that misses with one word of it, merges no half word in the
upper half, and a refill puts most words into wrong places.

* `settle_pos`, `settle_port`, `settle_neg` — the parts of a clock cycle without a refill;
* `Inv` — no refill is under way, and way 1 has the stored bytes;
* `each_reads` — along every run that loads stored words only, the cache answers as the flat memory.
-/
import RiVerSoC.FlatMemory

namespace RiVerSoC

namespace Dcache

/-! ### The write buffer holds no load -/

/-- No request in the buffer, or behind it, is a load. -/
structure NoLoad (b : Buffercache.Buffer) : Prop where
  buff0 : b.buff0.load = false
  buff1 : b.buff1.load = false
  mp : b.mp.load = false

theorem noLoad_fifoWrite {b : Buffercache.Buffer} {w : Bool} {c : Buffercache.Transfer}
    (h : NoLoad b) (hc : w = true → c.load = false) : NoLoad (Buffercache.fifoWrite b w c) := by
  unfold Buffercache.fifoWrite
  split_ifs with hw
  · exact ⟨hc hw, h.buff1, h.mp⟩
  · exact ⟨h.buff0, hc hw, h.mp⟩
  · exact h
  · exact h
  · exact h

theorem noLoad_fifoRead {b next : Buffercache.Buffer} (r : Bool) (h : NoLoad b)
    (hn : NoLoad next) : NoLoad (Buffercache.fifoRead b next r) := by
  unfold Buffercache.fifoRead
  split_ifs
  · exact ⟨hn.buff0, hn.buff1, h.buff1⟩
  · exact ⟨hn.buff0, hn.buff1, h.buff0⟩
  · exact hn
  · exact ⟨hn.buff0, hn.buff1, h.buff0⟩
  · exact ⟨hn.buff0, hn.buff1, h.buff1⟩
  · exact hn
  · exact hn

theorem noLoad_fifo {b : Buffercache.Buffer} {w r : Bool} {c : Buffercache.Transfer}
    (h : NoLoad b) (hc : w = true → c.load = false) : NoLoad (Buffercache.fifo b w r c) := by
  have hread := noLoad_fifoRead r h (noLoad_fifoWrite h hc)
  unfold Buffercache.fifo
  dsimp only
  split_ifs
  · exact ⟨hread.buff0, hread.buff1, rfl⟩
  · exact hread

/-! ### Delta cycles without a refill -/

/-- The signals that only an edge or the memory side moves. -/
def rest (s : Sig) : Sig := { s with hits := default, buffer := default }

theorem port_of_rest {a b : Sig} (h : rest a = rest b) : a.port = b.port :=
  (congrArg Sig.port h : (rest a).port = (rest b).port)

theorem mae_of_rest {a b : Sig} (h : rest a = rest b) : a.mae = b.mae :=
  (congrArg Sig.mae h : (rest a).mae = (rest b).mae)

theorem address_of_rest {a b : Sig} (h : rest a = rest b) : a.address = b.address :=
  (congrArg Sig.address h : (rest a).address = (rest b).address)

/-- The last update has left `adresse_parcer` and `mae_output` asleep. -/
structure Steady (a b : Sig) : Prop where
  port : a.port = b.port
  aSp : a.aSp = b.aSp
  mpAddress : a.mpAddress = b.mpAddress

variable {a b : Sig}

theorem delta_steady (h : Steady a b) : delta none a b =
    { b with
      hits := if missWoken a b then missDetection b else b.hits
      buffer :=
        if a.mae.writeBuff = false ∧ b.mae.writeBuff = true then
          Buffercache.fifo b.buffer b.mae.writeBuff b.mae.readBuff (bufferPorts b)
        else b.buffer } := by
  have hparcer : ¬ parcerWoken a b := by
    rintro (hn | hn)
    · exact hn (congrArg Port.dataAdrSm h.port)
    · exact hn h.aSp
  have hmp : ¬ a.mpAddress ≠ b.mpAddress := not_not.mpr h.mpAddress
  simp only [delta, hparcer, hmp, if_false, reduceCtorEq, false_or]

theorem steady_delta (h : Steady a b) : Steady b (delta none a b) := by
  rw [delta_steady h]
  exact ⟨rfl, rfl, rfl⟩

theorem rest_delta (h : Steady a b) : rest (delta none a b) = rest b := by
  rw [delta_steady h]
  rfl

theorem noLoad_delta (h : Steady a b) (hb : NoLoad b.buffer)
    (hw : b.mae.writeBuff = true → b.port.loadSm = false) : NoLoad (delta none a b).buffer := by
  rw [delta_steady h]
  dsimp only
  split_ifs
  · exact noLoad_fifo hb hw
  · exact hb

/-! ### What `miss_detection` leaves behind -/

/-- The hits are those of the arrays. -/
structure Fresh (s : Sig) : Prop where
  way0 : s.hits.way0Hit = s.mae.w0.has s.address
  way1 : s.hits.way1Hit = s.mae.w1.has s.address
  miss : s.hits.miss = (!s.mae.w0.has s.address && !s.mae.w1.has s.address)

/-- `miss_detection` has just run, with the hits of its activation before. -/
structure Fired (a b : Sig) : Prop where
  way0 : b.hits.way0Hit = b.mae.w0.has b.address
  way1 : b.hits.way1Hit = b.mae.w1.has b.address
  miss : b.hits.miss = (!a.hits.way0Hit && !a.hits.way1Hit)

/-- A hit is one in the arrays, in way 1; where there is none, the miss is reported. -/
structure Sound (s : Sig) : Prop where
  way0 : s.hits.way0Hit = false
  way1 : s.hits.way1Hit = true → s.mae.w1.has s.address = true
  miss : s.hits.miss = false → s.hits.way1Hit = true

/-- Way 0 is empty. -/
def NoWay0 (m : Mae) : Prop := ∀ i, m.w0.lineValidate i = false

theorem not_has_of_noWay0 {m : Mae} (h : NoWay0 m) (p : Parsed) : m.w0.has p = false := by
  rw [Way.has, h p.index, Bool.and_false]

theorem fired_delta (h : Steady a b) (hw : missWoken a b) : Fired b (delta none a b) := by
  rw [delta_steady h, if_pos hw]
  exact ⟨rfl, rfl, rfl⟩

theorem fresh_of_fired (h : Steady a b) (hf : Fired a b) : Fresh (delta none a b) := by
  rw [delta_steady h]
  by_cases hw : missWoken a b
  · -- it runs once more, with the hits of the arrays
    rw [if_pos hw]
    refine ⟨rfl, rfl, ?_⟩
    change (!b.hits.way0Hit && !b.hits.way1Hit) = _
    rw [hf.way0, hf.way1]
  · -- the hits have been those of the arrays before
    rw [if_neg hw]
    simp only [missWoken, not_or, ne_eq, not_not] at hw
    refine ⟨hf.way0, hf.way1, ?_⟩
    change b.hits.miss = _
    rw [hf.miss, hw.2.2.2.1, hw.2.2.2.2, hf.way0, hf.way1]

theorem fresh_delta (h : Steady a b) (hf : Fresh b) : Fresh (delta none a b) := by
  rw [delta_steady h]
  by_cases hw : missWoken a b
  · rw [if_pos hw]
    refine ⟨rfl, rfl, ?_⟩
    change (!b.hits.way0Hit && !b.hits.way1Hit) = _
    rw [hf.way0, hf.way1]
  · rw [if_neg hw]
    exact ⟨hf.way0, hf.way1, hf.miss⟩

theorem sound_of_fresh (h0 : NoWay0 b.mae) (hf : Fresh b) : Sound b where
  way0 := hf.way0.trans (not_has_of_noWay0 h0 _)
  way1 hhit := hf.way1.symm.trans hhit
  miss hmiss := by
    rw [hf.miss, not_has_of_noWay0 h0, Bool.not_false, Bool.true_and, Bool.not_eq_false'] at hmiss
    exact hf.way1.trans hmiss

/-- An activation on the arrays of `b` keeps the hits sound for arrays that have the lines of
`b`. -/
theorem sound_missDetection (h0 : NoWay0 b.mae) (hs : Sound b) {s : Sig}
    (hhits : s.hits = missDetection b)
    (hhas : b.mae.w1.has b.address = true → s.mae.w1.has s.address = true) : Sound s := by
  rw [missDetection] at hhits
  refine ⟨?_, ?_, ?_⟩ <;> rw [hhits]
  · exact not_has_of_noWay0 h0 _
  · exact hhas
  · intro hmiss
    change (!b.hits.way0Hit && !b.hits.way1Hit) = false at hmiss
    rw [hs.way0, Bool.not_false, Bool.true_and, Bool.not_eq_false'] at hmiss
    exact hs.way1 hmiss

theorem sound_delta (h : Steady a b) (h0 : NoWay0 b.mae) (hs : Sound b) :
    Sound (delta none a b) := by
  have hdelta := delta_steady h
  by_cases hw : missWoken a b
  · rw [if_pos hw] at hdelta
    exact sound_missDetection h0 hs (by rw [hdelta]) (by rw [hdelta]; exact id)
  · rw [if_neg hw] at hdelta
    rw [hdelta]
    exact ⟨hs.way0, hs.way1, hs.miss⟩

/-! ### The parts of a clock cycle -/

/-- No refill is under way. -/
structure Calm (s : Sig) : Prop where
  currentState : s.currentState = .idle
  futureState : s.futureState = .idle
  slaveAckSp : s.slaveAckSp = false
  mpAddress : s.mpAddress = parse s.aSp
  address : s.address = parse s.port.dataAdrSm
  lru : ∀ i, s.mae.lruBitCheck i = false
  way0 : NoWay0 s.mae
  buffer : NoLoad s.buffer

/-- `WRITE_OBUFF` is up for a store only. -/
def WritesStore (s : Sig) : Prop := s.mae.writeBuff = true → s.port.loadSm = false

/-- Nothing that `miss_detection` is sensitive to has moved. -/
structure Still (a b : Sig) : Prop extends Steady a b where
  address : a.address = b.address
  hits : a.hits = b.hits

theorem not_missWoken_of_still (h : Still a b) : ¬ missWoken a b := by
  rw [missWoken, h.address, h.hits, h.port]
  simp

theorem still_delta (h : Still a b) : Still b (delta none a b) := by
  rw [delta_steady h.toSteady, if_neg (not_missWoken_of_still h)]
  exact ⟨⟨rfl, rfl, rfl⟩, rfl, rfl⟩

/-- When all that `miss_detection` is sensitive to stays, nothing but the buffer moves. -/
theorem run_still (n : ℕ) (h : Still a b) (hb : NoLoad b.buffer) (hw : WritesStore b) :
    rest (Delta.run (delta none) n ⟨a, b⟩).cur = rest b ∧
      (Delta.run (delta none) n ⟨a, b⟩).cur.hits = b.hits ∧
      NoLoad (Delta.run (delta none) n ⟨a, b⟩).cur.buffer := by
  have hstep : ∀ x y, (Still x y ∧ rest y = rest b ∧ y.hits = b.hits ∧ NoLoad y.buffer) →
      Still y (delta none x y) ∧ rest (delta none x y) = rest b ∧
        (delta none x y).hits = b.hits ∧ NoLoad (delta none x y).buffer := by
    rintro x y ⟨hxy, hrest, hhits, hbuf⟩
    refine ⟨still_delta hxy, (rest_delta hxy.toSteady).trans hrest, ?_, ?_⟩
    · exact (still_delta hxy).hits.symm.trans hhits
    · refine noLoad_delta hxy.toSteady hbuf ?_
      rw [port_of_rest hrest, mae_of_rest hrest]
      exact hw
  exact (Delta.inv_run hstep n ⟨h, rfl, rfl, hb⟩).2

/-- The rising edge moves the write buffer only. -/
theorem settle_pos (h : Calm a) (hw : WritesStore a) :
    rest (settle (some .pos) a a) =
        rest { a with
          full := (Buffercache.bufferfull a.buffer).1
          empty := (Buffercache.bufferfull a.buffer).2 } ∧
      (settle (some .pos) a a).hits = a.hits ∧ NoLoad (settle (some .pos) a a).buffer := by
  have hedge : delta (some .pos) a a =
      { a with
        buffer := Buffercache.fifo a.buffer a.mae.writeBuff a.mae.readBuff (bufferPorts a)
        full := (Buffercache.bufferfull a.buffer).1
        empty := (Buffercache.bufferfull a.buffer).2 } := by
    simp [delta, parcerWoken, missWoken]
  have hstill : Still a (delta (some .pos) a a) := by
    rw [hedge]
    exact ⟨⟨rfl, rfl, rfl⟩, rfl, rfl⟩
  have hbuf : NoLoad (delta (some .pos) a a).buffer := by
    rw [hedge]
    exact noLoad_fifo h.buffer hw
  have hwrite : WritesStore (delta (some .pos) a a) := by
    rw [hedge]
    exact hw
  obtain ⟨hrest, hhits, hno⟩ := run_still 6 hstill hbuf hwrite
  refine ⟨hrest.trans ?_, hhits.trans ?_, hno⟩
  · rw [hedge]
    rfl
  · rw [hedge]

/-- What the other methods hold when MEM presents a port. -/
theorem delta_port {s : Sig} (h : Calm s) (p : Port) : delta none s { s with port := p } =
    { s with
      port := p
      address := parse p.dataAdrSm
      hits :=
        if missWoken s { s with port := p } then missDetection { s with port := p }
        else s.hits } := by
  have hadr : (if parcerWoken s { s with port := p } then parse p.dataAdrSm else s.address) =
      parse p.dataAdrSm := by
    split_ifs with hw
    · rfl
    · simp only [parcerWoken, not_or, not_not] at hw
      rw [h.address, hw.1]
  have hmp : (if parcerWoken s { s with port := p } then parse s.aSp else s.mpAddress) =
      s.mpAddress := by
    rw [h.mpAddress, ite_self]
  have hrise : ¬ (s.mae.writeBuff = false ∧ s.mae.writeBuff = true) := by
    rintro ⟨h1, h2⟩
    exact Bool.false_ne_true (h1.symm.trans h2)
  simp only [delta, reduceCtorEq, false_or, if_false, ne_eq, not_true_eq_false, hrise]
  rw [hadr, hmp]

/-- After MEM has presented a port, the hits are those of the arrays, or nothing has woken
`miss_detection`. -/
theorem settle_port {s : Sig} (h : Calm s) (p : Port) :
    rest (settle none s { s with port := p }) =
        rest { s with port := p, address := parse p.dataAdrSm } ∧
      (settle none s { s with port := p }).buffer = s.buffer ∧
      (Fresh (settle none s { s with port := p }) ∨
        (settle none s { s with port := p }).hits = s.hits ∧ s.address = parse p.dataAdrSm ∧
          s.port.loadSm = p.loadSm) := by
  have hdelta := delta_port h p
  set b : Sig := { s with port := p } with hb
  set c : Sig := delta none s b with hc
  have hsteady : Steady b c := by
    rw [hdelta]
    exact ⟨rfl, rfl, rfl⟩
  -- only the first delta cycle moves anything but the hits
  have hstep : ∀ x y, (Steady x y ∧ x.mae = y.mae ∧ rest y = rest c ∧ y.buffer = s.buffer) →
      Steady y (delta none x y) ∧ y.mae = (delta none x y).mae ∧
        rest (delta none x y) = rest c ∧ (delta none x y).buffer = s.buffer := by
    rintro x y ⟨hxy, hmae, hrest, hbuf⟩
    refine ⟨steady_delta hxy, ?_, (rest_delta hxy).trans hrest, ?_⟩
    · rw [delta_steady hxy]
    · rw [delta_steady hxy, hmae]
      refine (if_neg ?_).trans hbuf
      rintro ⟨h1, h2⟩
      exact Bool.false_ne_true (h1.symm.trans h2)
  have hstart : Steady b c ∧ b.mae = c.mae ∧ rest c = rest c ∧ c.buffer = s.buffer := by
    refine ⟨hsteady, ?_, rfl, ?_⟩ <;> rw [hdelta]
  obtain ⟨-, -, hrest, hbuf⟩ := Delta.inv_run hstep 6 hstart
  refine ⟨hrest.trans ?_, hbuf, ?_⟩
  · rw [hdelta]
    rfl
  have hfresh : ∀ x y, (Steady x y ∧ Fresh y) →
      Steady y (delta none x y) ∧ Fresh (delta none x y) :=
    fun x y ⟨hxy, hf⟩ => ⟨steady_delta hxy, fresh_delta hxy hf⟩
  have hsteady' := steady_delta hsteady
  by_cases hadr : missWoken b c
  · -- the address wakes it, and then its own hits may
    left
    have hfired := fired_delta hsteady hadr
    exact (Delta.inv_run hfresh 4 ⟨steady_delta hsteady', fresh_of_fired hsteady' hfired⟩).2
  · have hadr' := hadr
    simp only [missWoken, not_or, ne_eq, not_not] at hadr'
    by_cases hport : missWoken s b
    · -- the load or the store has woken it with the address that stays
      left
      rw [if_pos hport] at hdelta
      have hfired : Fired b c := by
        refine ⟨?_, ?_, ?_⟩
        · rw [← hadr'.1, hdelta]
          rfl
        · rw [← hadr'.1, hdelta]
          rfl
        · rw [hdelta]
          rfl
      exact (Delta.inv_run hfresh 5 ⟨hsteady', fresh_of_fired hsteady hfired⟩).2
    · right
      rw [if_neg hport] at hdelta
      have hstill : Still b c := by
        refine ⟨hsteady, hadr'.1, ?_⟩
        rw [hdelta]
      have hkeep : ∀ x y, (Still x y ∧ y.hits = s.hits) →
          Still y (delta none x y) ∧ (delta none x y).hits = s.hits :=
        fun x y ⟨hxy, hh⟩ => ⟨still_delta hxy, (still_delta hxy).hits.symm.trans hh⟩
      have hhits : c.hits = s.hits := by rw [hdelta]
      refine ⟨(Delta.inv_run hkeep 6 ⟨hstill, hhits⟩).2, ?_, ?_⟩
      · have hb' : s.address = c.address := hadr'.1
        rw [hb', hdelta]
      · simp only [missWoken, not_or, ne_eq, not_not] at hport
        exact hport.2.1

theorem has_install (w : Way) (p : Parsed) : (w.install p.index p.tag).has p = true := by
  simp [Way.has, Way.install]

/-- Without a refill, `mae_output` merges a store into way 1 and installs its line there. -/
theorem maeOutput_calm {s : Sig} (h : Calm s) (hs : Sound s) : maeOutput s =
    { s.mae with
      w1 :=
        if s.port.storeSm && s.port.validAdrSm then
          (merge s s.mae.w1).install s.address.index s.address.tag
        else s.mae.w1
      readBuff := true
      writeBuff := (s.port.loadSm && s.hits.miss || s.port.storeSm) && s.port.validAdrSm && !s.full
      dtaValidSc := !s.empty } := by
  rw [maeOutput, h.currentState]
  dsimp only
  by_cases hstore : (s.port.storeSm && s.port.validAdrSm) = true
  · rw [if_pos hstore, if_pos hstore, storeBits, h.lru, if_neg Bool.false_ne_true, hs.way0,
      if_neg Bool.false_ne_true]
    cases hmiss : s.hits.miss with
    | true => rw [if_pos rfl]
    | false =>
      -- the line is there already
      have hhit := hs.miss hmiss
      have hhas : (merge s s.mae.w1).has s.address = true := hs.way1 hhit
      rw [if_neg Bool.false_ne_true, if_pos hhit, install_of_has hhas]
  · rw [if_neg hstore, if_neg hstore]

theorem stateTransition_calm {s : Sig} (h : Calm s)
    (hload : s.port.loadSm = true → s.hits.miss = false) : stateTransition s = .idle := by
  rw [stateTransition, h.currentState]
  dsimp only
  split_ifs with hl hmiss
  · rw [Bool.and_eq_true] at hl hmiss
    exact absurd (hload hl.1) (by rw [hmiss.1]; decide)
  · rfl
  · rfl
  · exact h.futureState
  · rfl

/-- What the falling edge computes. -/
theorem delta_neg {s : Sig} (h : Calm s) (hload : s.port.loadSm = true → s.hits.miss = false) :
    delta (some .neg) s s = { s with hits := missDetection s, mae := maeOutput s } := by
  have hstate : stateTransition s = s.futureState :=
    (stateTransition_calm h hload).trans h.futureState.symm
  refine Eq.trans ?_ (congrArg₂ (fun c f => ({ s with
    hits := missDetection s
    mae := maeOutput s
    currentState := c
    futureState := f } : Sig)) (h.futureState.trans h.currentState.symm) hstate)
  simp [delta, parcerWoken, missWoken]

/-- Hits that do not wake `miss_detection` stay. -/
theorem hits_run (h : Steady a b) (hasleep : ¬ missWoken a b) (n : ℕ) :
    (Delta.run (delta none) n ⟨a, b⟩).cur.hits = b.hits := by
  have hstill : ∀ x y, (Steady x y ∧ ¬ missWoken x y ∧ y.hits = b.hits) →
      Steady y (delta none x y) ∧ ¬ missWoken y (delta none x y) ∧
        (delta none x y).hits = b.hits := by
    rintro x y ⟨hxy, hw, hhits⟩
    have hdelta := delta_steady hxy
    rw [if_neg hw] at hdelta
    refine ⟨steady_delta hxy, ?_, ?_⟩ <;> rw [hdelta]
    · simp [missWoken]
    · exact hhits
  exact (Delta.inv_run hstill n ⟨h, hasleep, rfl⟩).2.2

/-- The falling edge makes the store, and looks the load up. -/
theorem settle_neg {s : Sig} (h : Calm s) (hs : Sound s)
    (hload : s.port.loadSm = true → s.port.storeSm = false ∧ s.hits.miss = false) :
    rest (settle (some .neg) s s) = rest { s with mae := maeOutput s } ∧
      Sound (settle (some .neg) s s) ∧ NoLoad (settle (some .neg) s s).buffer ∧
      WritesStore (settle (some .neg) s s) ∧
      (s.port.loadSm = true → s.hits.way1Hit = true → s.mae.w1.has s.address = true →
        (settle (some .neg) s s).hits = missDetection s) := by
  have hedge := delta_neg h fun hl => (hload hl).2
  have hmae := maeOutput_calm h hs
  have hsteady : Steady s (delta (some .neg) s s) := by
    rw [hedge]
    exact ⟨rfl, rfl, rfl⟩
  -- a load that hits sends nothing to the buffer
  have hwrite : WritesStore (delta (some .neg) s s) := by
    rw [hedge]
    intro hw
    change (maeOutput s).writeBuff = true at hw
    change s.port.loadSm = false
    rw [hmae] at hw
    cases hl : s.port.loadSm with
    | false => rfl
    | true =>
      obtain ⟨hstore, hmiss⟩ := hload hl
      simp [hl, hstore, hmiss] at hw
  have hsound : Sound (delta (some .neg) s s) := by
    rw [hedge]
    refine sound_missDetection h.way0 hs rfl fun hhas => ?_
    change (maeOutput s).w1.has s.address = true
    rw [hmae]
    dsimp only
    split_ifs
    · exact has_install _ _
    · exact hhas
  have hway0 : NoWay0 (delta (some .neg) s s).mae := by
    rw [hedge]
    change NoWay0 (maeOutput s)
    rw [hmae]
    exact h.way0
  -- what the edge has written stays through the delta cycles behind it
  have hstep : ∀ x y, (Steady x y ∧ rest y = rest (delta (some .neg) s s) ∧ Sound y ∧
      NoLoad y.buffer) → Steady y (delta none x y) ∧
        rest (delta none x y) = rest (delta (some .neg) s s) ∧ Sound (delta none x y) ∧
        NoLoad (delta none x y).buffer := by
    rintro x y ⟨hxy, hrest, hs, hbuf⟩
    refine ⟨steady_delta hxy, (rest_delta hxy).trans hrest, sound_delta hxy ?_ hs,
      noLoad_delta hxy hbuf ?_⟩
    · rw [mae_of_rest hrest]
      exact hway0
    · rw [mae_of_rest hrest, port_of_rest hrest]
      exact hwrite
  have hbuf : NoLoad (delta (some .neg) s s).buffer := by
    rw [hedge]
    exact h.buffer
  obtain ⟨-, hrest, hs', hbuf'⟩ := Delta.inv_run hstep 6 ⟨hsteady, rfl, hsound, hbuf⟩
  have hwrite' : WritesStore (settle (some .neg) s s) := by
    intro hw
    have hmae' := mae_of_rest hrest
    rw [settle, hmae'] at hw
    exact (congrArg Port.loadSm (port_of_rest hrest)).trans (hwrite hw)
  refine ⟨hrest.trans ?_, hs', hbuf', hwrite', fun hl hhit hhas => ?_⟩
  · rw [hedge]
    rfl
  · have hasleep : ¬ missWoken s (delta (some .neg) s s) := by
      rw [hedge]
      simp [missWoken, missDetection, hhit, hhas, hs.way0, not_has_of_noWay0 h.way0]
    refine (hits_run hsteady hasleep 6).trans ?_
    rw [hedge]

/-! ### Clock cycles without a refill -/

theorem calm_of_rest {s t : Sig} (h : rest t = rest s) (hs : Calm s) (hb : NoLoad t.buffer) :
    Calm t := by
  obtain ⟨h1, h2, h3, h4, h5, h6, h7, -⟩ := hs
  have haSp : t.aSp = s.aSp := (congrArg Sig.aSp h : (rest t).aSp = (rest s).aSp)
  have hmae := mae_of_rest h
  refine ⟨?_, ?_, ?_, ?_, ?_, ?_, ?_, hb⟩
  · exact (congrArg Sig.currentState h : (rest t).currentState = (rest s).currentState).trans h1
  · exact (congrArg Sig.futureState h : (rest t).futureState = (rest s).futureState).trans h2
  · exact (congrArg Sig.slaveAckSp h : (rest t).slaveAckSp = (rest s).slaveAckSp).trans h3
  · rw [haSp]
    exact (congrArg Sig.mpAddress h : (rest t).mpAddress = (rest s).mpAddress).trans h4
  · rw [address_of_rest h, port_of_rest h]
    exact h5
  · rw [hmae]
    exact h6
  · rw [hmae]
    exact h7

theorem sound_congr {s t : Sig} (hhits : t.hits = s.hits) (hmae : t.mae = s.mae)
    (hadr : t.address = s.address) (hs : Sound s) : Sound t := by
  refine ⟨?_, ?_, ?_⟩ <;> rw [hhits]
  · exact hs.way0
  · rw [hmae, hadr]
    exact hs.way1
  · exact hs.miss

/-- The cache and the memory side, when no refill is under way. -/
structure Rests (s : State) : Prop where
  calm : Calm s.sig
  sound : Sound s.sig
  fsm : s.memory.fsm = .idle
  dtSp : s.memory.mpDt = s.sig.dtSp
  aSp : s.memory.mpA = s.sig.aSp

/-- The memory side sends nothing when it is shown no load. -/
theorem turn_idle {m : Memory} (h : m.fsm = .idle) {mp : Buffercache.Transfer}
    (hmp : mp.load = false) (answers dtaValid : Bool) :
    (m.turn answers dtaValid mp).fsm = .idle ∧ (m.turn answers dtaValid mp).mpAckDcache = false ∧
      (m.turn answers dtaValid mp).mpDt = m.mpDt ∧ (m.turn answers dtaValid mp).mpA = m.mpA := by
  rw [Memory.turn, h, hmp]
  cases dtaValid <;> cases mp.store <;> exact ⟨rfl, rfl, rfl, rfl⟩

/-- So the cache sees nothing of it. -/
theorem drive_turn {s : State} (h : Rests s) (answers dtaValid : Bool) :
    drive s.sig (s.memory.turn answers dtaValid s.sig.buffer.mp) = s.sig := by
  obtain ⟨-, hack, hdt, ha⟩ := turn_idle h.fsm h.calm.buffer.mp answers dtaValid
  rw [drive, hack, hdt, ha, h.dtSp, h.aSp, ← h.calm.slaveAckSp]

theorem rests_rise {s : State} (h : Rests s) (hw : WritesStore s.sig) (answers : Bool) :
    Rests (s.rise answers) ∧ (s.rise answers).sig.hits = s.sig.hits ∧
      (s.rise answers).sig.port = s.sig.port ∧ (s.rise answers).sig.mae = s.sig.mae := by
  obtain ⟨hrest, hhits, hbuf⟩ := settle_pos h.calm hw
  obtain ⟨hfsm, -, hdt, ha⟩ := turn_idle h.fsm h.calm.buffer.mp answers s.sig.mae.dtaValidSc
  have hsig : (s.rise answers).sig = settle (some .pos) s.sig s.sig :=
    congrArg (settle (some .pos) s.sig) (drive_turn h answers s.sig.mae.dtaValidSc)
  have hdtSp : (settle (some .pos) s.sig s.sig).dtSp = s.sig.dtSp :=
    (congrArg Sig.dtSp hrest : (rest _).dtSp = (rest _).dtSp)
  have haSp : (settle (some .pos) s.sig s.sig).aSp = s.sig.aSp :=
    (congrArg Sig.aSp hrest : (rest _).aSp = (rest _).aSp)
  obtain ⟨h1, h2, h3, h4, h5, h6, h7, -⟩ := h.calm
  refine ⟨⟨?_, ?_, hfsm, ?_, ?_⟩, ?_, ?_, ?_⟩
  · rw [hsig]
    exact calm_of_rest hrest ⟨h1, h2, h3, h4, h5, h6, h7, h.calm.buffer⟩ hbuf
  · rw [hsig]
    exact sound_congr hhits (mae_of_rest hrest :) (address_of_rest hrest :) h.sound
  · rw [hsig, hdtSp]
    exact hdt.trans h.dtSp
  · rw [hsig, haSp]
    exact ha.trans h.aSp
  · rw [hsig, hhits]
  · rw [hsig]
    exact (port_of_rest hrest :)
  · rw [hsig]
    exact (mae_of_rest hrest :)

/-- MEM presents a port; the hits are those of the arrays then, or stay. -/
theorem rests_present {s : State} (h : Rests s) (p : Port) :
    Rests (s.present p) ∧ (s.present p).sig.port = p ∧ (s.present p).sig.mae = s.sig.mae ∧
      (Fresh (s.present p).sig ∨ (s.present p).sig.hits = s.sig.hits ∧
        s.sig.port.loadSm = p.loadSm) := by
  obtain ⟨hrest, hbuf, hhits⟩ := settle_port h.calm p
  have hport : (s.present p).sig.port = p := (port_of_rest hrest :)
  have hmae : (s.present p).sig.mae = s.sig.mae := (mae_of_rest hrest :)
  have hadr : (s.present p).sig.address = parse p.dataAdrSm := (address_of_rest hrest :)
  have hdtSp : (s.present p).sig.dtSp = s.sig.dtSp :=
    (congrArg Sig.dtSp hrest : (rest _).dtSp = (rest _).dtSp)
  have haSp : (s.present p).sig.aSp = s.sig.aSp :=
    (congrArg Sig.aSp hrest : (rest _).aSp = (rest _).aSp)
  obtain ⟨h1, h2, h3, h4, -, h6, h7, hno⟩ := h.calm
  refine ⟨⟨?_, ?_, h.fsm, h.dtSp.trans hdtSp.symm, h.aSp.trans haSp.symm⟩, hport, hmae, ?_⟩
  · refine calm_of_rest hrest ⟨h1, h2, h3, h4, rfl, h6, h7, hno⟩ ?_
    rw [show (s.present p).sig.buffer = s.sig.buffer from hbuf]
    exact hno
  · rcases hhits with hf | ⟨hhits, hsame, -⟩
    · refine sound_of_fresh ?_ hf
      rw [hmae]
      exact h7
    · exact sound_congr hhits hmae (hadr.trans hsame.symm) h.sound
  · rcases hhits with hf | ⟨hhits, -, hload⟩
    · exact .inl hf
    · exact .inr ⟨hhits, hload⟩

theorem rests_fall {s : State} (h : Rests s) (answers : Bool)
    (hload : s.sig.port.loadSm = true → s.sig.port.storeSm = false ∧ s.sig.hits.miss = false) :
    Rests (s.fall answers) ∧ WritesStore (s.fall answers).sig ∧
      (s.fall answers).sig.port = s.sig.port ∧ (s.fall answers).sig.mae = maeOutput s.sig ∧
      (s.sig.port.loadSm = true → s.sig.hits.way1Hit = true →
        s.sig.mae.w1.has s.sig.address = true →
        (s.fall answers).sig.hits = missDetection s.sig) := by
  obtain ⟨hrest, hsound, hbuf, hwrite, hhits⟩ := settle_neg h.calm h.sound hload
  obtain ⟨hfsm, -, hdt, ha⟩ := turn_idle h.fsm h.calm.buffer.mp answers s.sig.mae.dtaValidSc
  have hsig : (s.fall answers).sig = settle (some .neg) s.sig s.sig :=
    congrArg (settle (some .neg) s.sig) (drive_turn h answers s.sig.mae.dtaValidSc)
  have hdtSp : (settle (some .neg) s.sig s.sig).dtSp = s.sig.dtSp :=
    (congrArg Sig.dtSp hrest : (rest _).dtSp = (rest _).dtSp)
  have haSp : (settle (some .neg) s.sig s.sig).aSp = s.sig.aSp :=
    (congrArg Sig.aSp hrest : (rest _).aSp = (rest _).aSp)
  obtain ⟨h1, h2, h3, h4, h5, h6, h7, hno⟩ := h.calm
  have hmae := maeOutput_calm h.calm h.sound
  rw [hsig]
  refine ⟨⟨?_, ?_, hfsm, ?_, ?_⟩, hwrite, (port_of_rest hrest :), (mae_of_rest hrest :), hhits⟩
  · rw [hsig]
    refine calm_of_rest hrest ⟨h1, h2, h3, h4, h5, ?_, ?_, hno⟩ hbuf
    · change ∀ i, (maeOutput s.sig).lruBitCheck i = false
      rw [hmae]
      exact h6
    · change NoWay0 (maeOutput s.sig)
      rw [hmae]
      exact h7
  · rw [hsig]
    exact hsound
  · rw [hsig, hdtSp]
    exact hdt.trans h.dtSp
  · rw [hsig, haSp]
    exact ha.trans h.aSp

/-! ### The cache and the flat memory -/

/-- The cache, and the accesses that have been presented, the last one first. -/
structure Machine where
  cache : State
  taken : List Access

namespace Machine

def reset (ram : Ram) : Machine := ⟨Dcache.reset ram, []⟩

variable (m : Machine) (i : Cycle)

def step : Machine where
  cache := Dcache.step m.cache i
  taken := if m.cache.sig.hits.stallSc then m.taken else i.access.toList ++ m.taken

end Machine

/-- All four bytes of the word are stored. -/
def wordStored (h : List Access) (adr : BitVec 32) : Bool :=
  stored h (wordAdr adr) && stored h (wordAdr adr + 1) && stored h (wordAdr adr + 2) &&
    stored h (wordAdr adr + 3)

/-- A load that is presented and does not stall is answered with the word of the flat memory. -/
def Reads (ram : Ram) (m : Machine) : Prop :=
  m.cache.sig.port.loadSm = true → m.cache.sig.hits.stallSc = false →
    m.cache.sig.hits.dataSc = wordOf (flat ram m.taken) m.cache.sig.port.dataAdrSm

/-- A load that is taken is one of a word that is stored. -/
def LoadsStored (m : Machine) (i : Cycle) : Prop :=
  m.cache.sig.hits.stallSc = false →
    ∀ a ∈ i.access, a.store = false → wordStored m.taken a.adr = true

instance (ram : Ram) (m : Machine) : Decidable (Reads ram m) :=
  inferInstanceAs (Decidable (_ → _ → _))

instance (m : Machine) (i : Cycle) : Decidable (LoadsStored m i) :=
  inferInstanceAs (Decidable (_ → _))

/-- The port shows the access that was taken last, or none. -/
def Shows (p : Port) (h : List Access) : Prop :=
  p.loadSm = false ∧ p.storeSm = false ∨ ∃ a t, h = a :: t ∧ p = a.port

/-- What holds in every cycle of a run without load misses. -/
structure Inv (ram : Ram) (m : Machine) : Prop where
  rests : Rests m.cache
  writes : WritesStore m.cache.sig
  load : m.cache.sig.port.loadSm = true → m.cache.sig.hits.way1Hit = true ∧
    m.cache.sig.hits.miss = false ∧ m.cache.sig.hits.stallSc = false
  reads : Reads ram m
  shows : Shows m.cache.sig.port m.taken
  holds : Holds ram m.cache.sig.mae.w1 m.taken

theorem inv_reset (ram : Ram) : Inv ram (Machine.reset ram) where
  rests :=
    { calm := ⟨rfl, rfl, rfl, rfl, rfl, fun _ => rfl, fun _ => rfl, ⟨rfl, rfl, rfl⟩⟩
      sound :=
        ⟨rfl, fun h => absurd h Bool.false_ne_true, fun h => absurd h.symm Bool.false_ne_true⟩
      fsm := rfl
      dtSp := rfl
      aSp := rfl }
  writes h := absurd h Bool.false_ne_true
  load h := absurd h Bool.false_ne_true
  reads h := absurd h Bool.false_ne_true
  shows := .inl ⟨rfl, rfl⟩
  holds := holds_nil _ _

theorem stored_of_wordStored {h : List Access} {adr b : BitVec 32} (hs : wordStored h adr = true)
    (hw : b.toNat / 4 = adr.toNat / 4) : stored h b = true := by
  rw [wordStored, Bool.and_eq_true, Bool.and_eq_true, Bool.and_eq_true] at hs
  obtain ⟨⟨⟨h0, h1⟩, h2⟩, h3⟩ := hs
  have hb : ∀ k : BitVec 32, k.toNat < 4 → b.toNat % 4 = k.toNat → b = wordAdr adr + k := by
    intro k hk hmod
    have hsum := toNat_wordAdr_add adr hk
    apply BitVec.eq_of_toNat_eq
    omega
  have hcases : b.toNat % 4 = 0 ∨ b.toNat % 4 = 1 ∨ b.toNat % 4 = 2 ∨ b.toNat % 4 = 3 := by omega
  rcases hcases with hmod | hmod | hmod | hmod
  · rw [hb 0 (by decide) hmod, show wordAdr adr + 0 = wordAdr adr from BitVec.add_zero _]
    exact h0
  · rw [hb 1 (by decide) hmod]
    exact h1
  · rw [hb 2 (by decide) hmod]
    exact h2
  · rw [hb 3 (by decide) hmod]
    exact h3

variable {ram : Ram} {m : Machine} {i : Cycle}

/-- What MEM presents in a cycle. -/
def portOf (m : Machine) (i : Cycle) : Port :=
  if m.cache.sig.hits.stallSc then m.cache.sig.port else i.port

/-- The cache when MEM has presented it. -/
def presented (m : Machine) (i : Cycle) : State :=
  (m.cache.rise i.answersPos).present (portOf m i)

theorem shows_step (h : Inv ram m) : Shows (portOf m i) (m.step i).taken := by
  rw [portOf, Machine.step]
  cases m.cache.sig.hits.stallSc with
  | true => exact h.shows
  | false =>
    rw [if_neg Bool.false_ne_true, if_neg Bool.false_ne_true, Cycle.port]
    cases i.access with
    | none => exact .inl ⟨rfl, rfl⟩
    | some a => exact .inr ⟨a, m.taken, rfl, rfl⟩

/-- A load that is presented has just been taken: a load does not wait. -/
theorem taken_of_load (h : Inv ram m) (hl : (portOf m i).loadSm = true) :
    ∃ a, m.cache.sig.hits.stallSc = false ∧ i.access = some a ∧ a.store = false ∧
      portOf m i = a.port ∧ (m.step i).taken = a :: m.taken := by
  have hstall : m.cache.sig.hits.stallSc = false := by
    by_cases hstall : m.cache.sig.hits.stallSc = true
    · rw [portOf, if_pos hstall] at hl
      exact (h.load hl).2.2
    · exact Bool.eq_false_iff.mpr hstall
  rw [Machine.step, hstall, if_neg Bool.false_ne_true]
  rw [portOf, hstall, if_neg Bool.false_ne_true] at hl ⊢
  cases hacc : i.access with
  | none =>
    rw [Cycle.port, hacc] at hl
    exact absurd hl Bool.false_ne_true
  | some a =>
    rw [Cycle.port, hacc] at hl ⊢
    change (!a.store) = true at hl
    exact ⟨a, rfl, rfl, by rwa [Bool.not_eq_true'] at hl, rfl, rfl⟩

/-- The state in which a presented load hits. -/
theorem presented_spec (h : Inv ram m) (hc : LoadsStored m i) :
    Rests (presented m i) ∧ (presented m i).sig.port = portOf m i ∧
      (presented m i).sig.mae = m.cache.sig.mae ∧
      ((portOf m i).loadSm = true → (portOf m i).storeSm = false ∧
        (presented m i).sig.hits.way1Hit = true ∧ (presented m i).sig.hits.miss = false ∧
        m.cache.sig.mae.w1.has (parse (portOf m i).dataAdrSm) = true ∧
        m.cache.sig.mae.w1.word (parse (portOf m i).dataAdrSm).place =
          wordOf (flat ram (m.step i).taken) (portOf m i).dataAdrSm) := by
  obtain ⟨hrise, hhits, hport, hmae⟩ := rests_rise h.rests h.writes i.answersPos
  obtain ⟨hrests, hport', hmae', hcases⟩ : Rests (presented m i) ∧
      (presented m i).sig.port = portOf m i ∧
      (presented m i).sig.mae = (m.cache.rise i.answersPos).sig.mae ∧
      (Fresh (presented m i).sig ∨
        (presented m i).sig.hits = (m.cache.rise i.answersPos).sig.hits ∧
          (m.cache.rise i.answersPos).sig.port.loadSm = (portOf m i).loadSm) :=
    rests_present hrise (portOf m i)
  refine ⟨hrests, hport', hmae'.trans hmae, fun hl => ?_⟩
  obtain ⟨a, hstall, hacc, hstore, ha, htaken⟩ := taken_of_load h hl
  have hword := hc hstall a (by rw [hacc]; rfl) hstore
  obtain ⟨hhas, hvalue⟩ := word_of_holds h.holds fun b => stored_of_wordStored hword
  have hhits' : (presented m i).sig.hits.way1Hit = true ∧
      (presented m i).sig.hits.miss = false := by
    rcases hcases with hf | ⟨hsame, hload⟩
    · have hin : (presented m i).sig.mae.w1.has (presented m i).sig.address = true := by
        rw [hrests.calm.address, hport', ha, hmae', hmae]
        exact hhas
      refine ⟨hf.way1.trans hin, hf.miss.trans ?_⟩
      rw [hin, Bool.not_true, Bool.and_false]
    · -- nothing has woken `miss_detection`: the port has shown a load of this word before
      obtain ⟨hway, hmiss, -⟩ := h.load (by rw [← hport]; exact hload.trans hl)
      rw [hsame, hhits]
      exact ⟨hway, hmiss⟩
  rw [htaken, flat_load hstore, ha]
  exact ⟨hstore, hhits'.1, hhits'.2, hhas, hvalue⟩

/-- What the falling edge makes of way 1. -/
def mergedWay (s : Sig) : Way :=
  if s.port.storeSm && s.port.validAdrSm then
    (merge s s.mae.w1).install s.address.index s.address.tag
  else s.mae.w1

theorem mergedWay_of_not_store {s : Sig} (h : s.port.storeSm = false) : mergedWay s = s.mae.w1 := by
  rw [mergedWay, h, Bool.false_and, if_neg Bool.false_ne_true]

/-- An access that is presented keeps the way right. -/
theorem holds_mergedWay {s : Sig} {a : Access} {t : List Access} (hp : s.port = a.port)
    (hadr : s.address = parse s.port.dataAdrSm) (h : Holds ram s.mae.w1 t) :
    Holds ram (mergedWay s) (a :: t) := by
  cases hs : a.store with
  | false =>
    have hstore : s.port.storeSm = false := by
      rw [hp]
      exact hs
    intro b hb
    rw [stored_load hs] at hb
    rw [mergedWay_of_not_store hstore, flat_load hs]
    exact h b hb
  | true =>
    have hstore : (s.port.storeSm && s.port.validAdrSm) = true := by
      rw [hp]
      exact (Bool.and_true _).trans hs
    rw [mergedWay, if_pos hstore]
    refine holds_merge hs hp ?_ h
    rw [hadr, hp]
    rfl

/-- A store that waits is merged again, which changes nothing. -/
theorem holds_presented (h : Inv ram m) {s : Sig} (hp : s.port = portOf m i)
    (hadr : s.address = parse s.port.dataAdrSm) (hmae : s.mae = m.cache.sig.mae) :
    Holds ram (mergedWay s) (m.step i).taken := by
  have hold := h.holds
  rw [← hmae] at hold
  rw [Machine.step]
  dsimp only
  cases hstall : m.cache.sig.hits.stallSc with
  | true =>
    rw [portOf, if_pos hstall] at hp
    rw [if_pos rfl]
    rcases h.shows with ⟨-, hs⟩ | ⟨a, t, htaken, ha⟩
    · rw [mergedWay_of_not_store (by rw [hp]; exact hs)]
      exact hold
    · have hagain := holds_mergedWay (hp.trans ha) hadr hold
      cases hs : a.store with
      | false =>
        rw [mergedWay_of_not_store (by rw [hp, ha]; exact hs)]
        exact hold
      | true =>
        rw [htaken] at hagain ⊢
        exact holds_again hs hagain
  | false =>
    rw [portOf, hstall, if_neg Bool.false_ne_true, Cycle.port] at hp
    rw [if_neg Bool.false_ne_true]
    cases hacc : i.access with
    | none =>
      rw [hacc] at hp
      rw [mergedWay_of_not_store (by rw [hp])]
      exact hold
    | some a =>
      rw [hacc] at hp
      exact holds_mergedWay hp hadr hold

theorem inv_step (h : Inv ram m) (hc : LoadsStored m i) : Inv ram (m.step i) := by
  obtain ⟨hrests, hport, hmae, hload⟩ := presented_spec h hc
  have hone : (presented m i).sig.port.loadSm = true →
      (presented m i).sig.port.storeSm = false ∧ (presented m i).sig.hits.miss = false := by
    rw [hport]
    exact fun hl => ⟨(hload hl).1, (hload hl).2.2.1⟩
  obtain ⟨hrests', hwrites, hport', hmae', hhits⟩ := rests_fall hrests i.answersNeg hone
  rw [hport] at hport' hhits
  have hadr : (presented m i).sig.address = parse (portOf m i).dataAdrSm := by
    rw [hrests.calm.address, hport]
  -- what the falling edge makes of a load
  have hanswer : (portOf m i).loadSm = true →
      (m.step i).cache.sig.hits = missDetection (presented m i).sig ∧
        missDetection (presented m i).sig =
          { dataSc := wordOf (flat ram (m.step i).taken) (portOf m i).dataAdrSm
            way0Hit := false
            way1Hit := true
            miss := false
            stallSc := false } := by
    intro hl
    obtain ⟨hstore, hway, hmiss, hhas, hvalue⟩ := hload hl
    have hin : (presented m i).sig.mae.w1.has (presented m i).sig.address = true := by
      rw [hmae, hadr]
      exact hhas
    refine ⟨hhits hl hway hin, ?_⟩
    have htag := hin
    rw [Way.has, Bool.and_eq_true] at htag
    rw [missDetection, htag.1, hport, hl, hway, hmiss, hstore, hin,
      not_has_of_noWay0 hrests.calm.way0, ← hvalue, hmae, hadr, hrests.sound.way0]
    rfl
  refine ⟨hrests', hwrites, fun hl => ?_, fun hl hstall => ?_, ?_, ?_⟩
  · rw [show (m.step i).cache.sig.port = _ from hport'] at hl
    obtain ⟨h1, h2⟩ := hanswer hl
    rw [h1, h2]
    exact ⟨rfl, rfl, rfl⟩
  · rw [show (m.step i).cache.sig.port = _ from hport'] at hl ⊢
    obtain ⟨h1, h2⟩ := hanswer hl
    rw [h1, h2]
  · rw [show (m.step i).cache.sig.port = _ from hport']
    exact shows_step h
  · rw [show (m.step i).cache.sig.mae = _ from hmae', maeOutput_calm hrests.calm hrests.sound]
    refine holds_presented h hport ?_ hmae
    rw [hadr, hport]

/-- In a run that loads words that are stored, the cache answers each load that does not stall with
the word of the flat memory. -/
theorem each_reads (ram : Ram) (is : List Cycle)
    (h : Run.Each LoadsStored Machine.step (Machine.reset ram) is) :
    Run.Each (fun m i => Reads ram (m.step i)) Machine.step (Machine.reset ram) is := by
  have hstep : ∀ m i, Inv ram m → LoadsStored m i → Inv ram (m.step i) :=
    fun _ _ => inv_step
  have hreads : ∀ m i, Inv ram m → LoadsStored m i → Reads ram (m.step i) :=
    fun m i hm hc => (hstep m i hm hc).reads
  exact Run.each_of_inv hreads hstep (inv_reset ram) h

/-- A store of a word, and a load of it. -/
def storeLoad : List Cycle :=
  [⟨some ⟨⟨0x104#32, 0, by decide⟩, true, 0x12345678#32⟩, default, true, true⟩,
   ⟨some ⟨⟨0x104#32, 0, by decide⟩, false, 0⟩, default, true, true⟩]

theorem each_reads_storeLoad :
    Run.Each (fun m i => Reads (fun a => a) (m.step i)) Machine.step (Machine.reset fun a => a)
      storeLoad :=
  each_reads (fun a => a) storeLoad (by decide +kernel)

/-- A store of the first word of a line, and a load of the second one: the line is valid with one
word, and the load hits with 0. -/
theorem not_each_reads_neighbour :
    ¬ Run.Each (fun m i => Reads (fun a => a) (m.step i)) Machine.step (Machine.reset fun a => a)
      [⟨some ⟨⟨0x100#32, 0, by decide⟩, true, 0x12345678#32⟩, default, true, true⟩,
       ⟨some ⟨⟨0x104#32, 0, by decide⟩, false, 0⟩, default, true, true⟩] := by
  decide +kernel

end Dcache

end RiVerSoC
