/-
  Three verdicts on the same two numbers.

  A capacity and a unit size are judged where settings are checked, where a geometry is made of them,
  and where a header is found in memory.  The three look at different things besides, and complain in
  words of their own; of the two numbers they say the same, and look at the capacity first.

  `Settings.Possible` says what each setting has to be and `Settings.FirstImpossible` which of them a
  verdict is about, without the chain of tests that finds it.  `Settings.Verdicts` has the ways in
  which the first two verdicts can come out together; there are five of them.  So whoever has
  settings that were accepted need not check again: the geometry can be made, the header that is
  written for it declares it, and a ring over it can be split.
-/
import SharedRing.Proofs.FileFormat
import SharedRing.Settings

namespace SharedRing

/-- Where a setting stands in the order of the checks. -/
def Setting.place : Setting → Nat
  | .capacity => 0
  | .unitSize => 1
  | .messageBytes => 2
  | .noticeFraction => 3

namespace Settings

/-- What the value of a setting has to be. -/
def Possible (s : Settings) : Setting → Prop
  | .capacity => ∃ k < 32, s.capacity.toNat = 2 ^ k
  | .unitSize => s.unitSize ≠ 0
  | .messageBytes => s.messageBytes ≠ 0
  | .noticeFraction => 0.0 < s.noticeFraction ∧ s.noticeFraction ≤ 1.0

/-- This value cannot be, and all that are looked at before it can. -/
structure FirstImpossible (s : Settings) (fault : Setting) : Prop where
  impossible : ¬ s.Possible fault
  earlier : ∀ f : Setting, f.place < fault.place → s.Possible f

variable {s : Settings}

theorem possible_capacity_iff : s.Possible .capacity ↔ s.capacity.toNat.isPowerOfTwo :=
  (UInt32.isPowerOfTwo_iff _).symm

theorem possible_unitSize_iff : s.Possible .unitSize ↔ s.unitSize ≠ 0 := Iff.rfl

theorem not_possible_noticeFraction_iff : ¬ s.Possible .noticeFraction
    ↔ (!(s.noticeFraction > 0.0 && s.noticeFraction ≤ 1.0)) = true := by
  rw [Bool.not_eq_true', ← Bool.not_eq_true, Bool.and_eq_true, decide_eq_true_iff,
    decide_eq_true_iff]
  exact Iff.rfl

/-- The chain of tests finds the first value that cannot be. -/
theorem firstFault_cases (s : Settings) :
    (∃ f, s.firstFault = some f ∧ s.FirstImpossible f)
      ∨ s.firstFault = none ∧ ∀ f, s.Possible f := by
  rw [firstFault]
  by_cases hcapacity : s.Possible .capacity
  case neg =>
    rw [if_pos (possible_capacity_iff.not.1 hcapacity)]
    exact .inl ⟨_, rfl, hcapacity, fun f hlt => absurd hlt (Nat.not_lt_zero _)⟩
  rw [if_neg (not_not_intro (possible_capacity_iff.1 hcapacity))]
  by_cases hunit : s.unitSize = 0
  · rw [if_pos hunit]
    refine .inl ⟨_, rfl, not_not_intro hunit, fun f hlt => ?_⟩
    cases f <;> first | exact hcapacity | exact absurd hlt (by decide)
  rw [if_neg hunit]
  by_cases hmessage : s.messageBytes = 0
  · rw [if_pos hmessage]
    refine .inl ⟨_, rfl, not_not_intro hmessage, fun f hlt => ?_⟩
    cases f <;> first | exact hcapacity | exact hunit | exact absurd hlt (by decide)
  rw [if_neg hmessage]
  by_cases hfraction : s.Possible .noticeFraction
  · rw [if_neg (not_possible_noticeFraction_iff.not.1 (not_not_intro hfraction))]
    refine .inr ⟨rfl, fun f => ?_⟩
    cases f <;> assumption
  · rw [if_pos (not_possible_noticeFraction_iff.1 hfraction)]
    refine .inl ⟨_, rfl, hfraction, fun f hlt => ?_⟩
    cases f <;> first | assumption | exact absurd hlt (Nat.lt_irrefl _)

/-! ## The verdicts together -/

/-- How the verdict on settings and the geometry of their two numbers come out together. -/
inductive Verdicts (s : Settings) : Except SettingsError Unit → Except Refusal Geometry → Prop
  | capacity (first : s.FirstImpossible .capacity) :
    Verdicts s (.error (.impossible .capacity)) (.error (.badCapacity s.capacity))
  | unitSize (first : s.FirstImpossible .unitSize) :
    Verdicts s (.error (.impossible .unitSize)) (.error .emptyUnit)
  /-- the numbers are right, and something else is not -/
  | messageBytes {g : Geometry} (first : s.FirstImpossible .messageBytes) (hsize : g.size = s.size) :
    Verdicts s (.error (.impossible .messageBytes)) (.ok g)
  | noticeFraction {g : Geometry} (first : s.FirstImpossible .noticeFraction)
    (hsize : g.size = s.size) : Verdicts s (.error (.impossible .noticeFraction)) (.ok g)
  | ok {g : Geometry} (possible : ∀ f, s.Possible f) (hsize : g.size = s.size) :
    Verdicts s (.ok ()) (.ok g)

/-- Numbers that are possible are those of a geometry. -/
theorem ofNumbers_of_possible (hcapacity : s.Possible .capacity) (hunit : s.Possible .unitSize) :
    ∃ g, Geometry.ofNumbers s.capacity s.unitSize = .ok g ∧ g.size = s.size := by
  rw [Geometry.ofNumbers_eq, dif_pos (possible_capacity_iff.1 hcapacity),
    dif_pos (possible_unitSize_iff.1 hunit)]
  exact ⟨_, rfl, rfl⟩

theorem verdicts (s : Settings) :
    s.Verdicts s.check (Geometry.ofNumbers s.capacity s.unitSize) := by
  rw [check]
  obtain ⟨f, hfault, first⟩ | ⟨hfault, possible⟩ := s.firstFault_cases
  · rw [hfault]
    cases f with
    | capacity =>
      rw [Geometry.ofNumbers_eq, dif_neg (possible_capacity_iff.not.1 first.impossible)]
      exact .capacity first
    | unitSize =>
      have hcapacity : s.Possible .capacity := first.earlier .capacity (by decide)
      rw [Geometry.ofNumbers_eq, dif_pos (possible_capacity_iff.1 hcapacity),
        dif_neg (possible_unitSize_iff.not.1 first.impossible)]
      exact .unitSize first
    | messageBytes =>
      obtain ⟨g, hg, hsize⟩ := ofNumbers_of_possible (first.earlier .capacity (by decide))
        (first.earlier .unitSize (by decide))
      rw [hg]
      exact .messageBytes first hsize
    | noticeFraction =>
      obtain ⟨g, hg, hsize⟩ := ofNumbers_of_possible (first.earlier .capacity (by decide))
        (first.earlier .unitSize (by decide))
      rw [hg]
      exact .noticeFraction first hsize
  · obtain ⟨g, hg, hsize⟩ := ofNumbers_of_possible (possible .capacity) (possible .unitSize)
    rw [hfault, hg]
    exact .ok possible hsize

/-- The two verdicts on the two numbers are one. -/
structure ChecksAgree (s : Settings) : Prop where
  capacity : ∀ v, Geometry.ofNumbers s.capacity s.unitSize = .error (.badCapacity v)
    ↔ v = s.capacity ∧ s.check = .error (.impossible .capacity)
  unitSize : Geometry.ofNumbers s.capacity s.unitSize = .error .emptyUnit
    ↔ s.check = .error (.impossible .unitSize)
  ok : (∃ g, Geometry.ofNumbers s.capacity s.unitSize = .ok g) ↔ s.check = .ok ()
    ∨ s.check = .error (.impossible .messageBytes) ∨ s.check = .error (.impossible .noticeFraction)
  /-- the ring is as long as the settings say -/
  size_eq : ∀ g, Geometry.ofNumbers s.capacity s.unitSize = .ok g →
    g.size = s.size ∧ s.size.toNat = s.capacity.toNat * s.unitSize.toNat

theorem checksAgree (s : Settings) : s.ChecksAgree := by
  have joint := s.verdicts
  have hexact : s.size.toNat = s.capacity.toNat * s.unitSize.toNat := by
    rw [size, UInt64.toNat_mul, UInt32.toNat_toUInt64, UInt32.toNat_toUInt64]
    exact Nat.mod_eq_of_lt (Geometry.mul_lt_word _ _)
  -- in each of the five ways both sides of every equivalence are known
  refine { capacity := ?_, unitSize := ?_, ok := ?_, size_eq := ?_ }
  all_goals
    generalize s.check = verdict, Geometry.ofNumbers s.capacity s.unitSize = made at joint ⊢
    cases joint <;> simp_all [eq_comm]

end Settings

/-! ## Headers -/

namespace Header

/-- What a header is judged by: first that it is one, then its version, then its two numbers. -/
inductive Judged (h : Header) : Except Refusal Geometry → Prop
  | noHeader (magic : h.magic ≠ mark) : Judged h (.error .noHeader)
  | otherVersion (magic : h.magic = mark) (version : h.version ≠ layoutVersion) :
    Judged h (.error (.otherVersion h.version layoutVersion))
  | badCapacity (magic : h.magic = mark) (version : h.version = layoutVersion)
    (capacity : ¬ ∃ k < 32, h.capacity.toNat = 2 ^ k) : Judged h (.error (.badCapacity h.capacity))
  | emptyUnit (magic : h.magic = mark) (version : h.version = layoutVersion)
    (capacity : ∃ k < 32, h.capacity.toNat = 2 ^ k) (unitSize : h.unitSize = 0) :
    Judged h (.error .emptyUnit)
  | ok {g : Geometry} (magic : h.magic = mark) (version : h.version = layoutVersion)
    (capacity : ∃ k < 32, h.capacity.toNat = 2 ^ k) (unitSize : h.unitSize ≠ 0) : Judged h (.ok g)

theorem judged (h : Header) : h.Judged h.declared := by
  rw [declared, Geometry.ofNumbers_eq]
  by_cases magic : h.magic = mark
  case neg =>
    rw [if_pos magic]
    exact .noHeader magic
  rw [if_neg (not_not_intro magic)]
  by_cases version : h.version = layoutVersion
  case neg =>
    rw [if_pos version]
    exact .otherVersion magic version
  rw [if_neg (not_not_intro version)]
  by_cases hpower : h.capacity.toNat.isPowerOfTwo
  case neg =>
    rw [dif_neg hpower]
    exact .badCapacity magic version ((UInt32.isPowerOfTwo_iff _).not.1 hpower)
  rw [dif_pos hpower]
  by_cases hunit : h.unitSize = 0
  · rw [dif_neg (not_not_intro hunit)]
    exact .emptyUnit magic version ((UInt32.isPowerOfTwo_iff _).1 hpower) hunit
  · rw [dif_pos hunit]
    exact .ok magic version ((UInt32.isPowerOfTwo_iff _).1 hpower) hunit

/-- When a header is believed, and what is said of one that is not. -/
structure Believed (h : Header) : Prop where
  /-- of a header of this version its two numbers decide, as they do anywhere -/
  numbers : h.magic = mark → h.version = layoutVersion →
    h.declared = Geometry.ofNumbers h.capacity h.unitSize
  /-- a geometry is declared by the headers that agree with its own in these four fields -/
  ok_iff : ∀ g, h.declared = .ok g ↔ h.magic = (ofGeometry g).magic
    ∧ h.version = (ofGeometry g).version ∧ h.capacity = (ofGeometry g).capacity
    ∧ h.unitSize = (ofGeometry g).unitSize
  /-- the counters do not matter -/
  counters : ∀ head tail signal,
    { h with head := head, tail := tail, signal := signal : Header }.declared = h.declared
  noHeader_iff : h.declared = .error .noHeader ↔ h.magic ≠ mark
  otherVersion_iff : ∀ found expected, h.declared = .error (.otherVersion found expected)
    ↔ h.magic = mark ∧ h.version ≠ layoutVersion ∧ found = h.version ∧ expected = layoutVersion
  badCapacity_iff : ∀ v, h.declared = .error (.badCapacity v) ↔ h.magic = mark
    ∧ h.version = layoutVersion ∧ v = h.capacity ∧ ¬ ∃ k < 32, h.capacity.toNat = 2 ^ k
  emptyUnit_iff : h.declared = .error .emptyUnit ↔ h.magic = mark
    ∧ h.version = layoutVersion ∧ (∃ k < 32, h.capacity.toNat = 2 ^ k) ∧ h.unitSize = 0

theorem believed (h : Header) : h.Believed := by
  have judged := h.judged
  have numbers : h.magic = mark → h.version = layoutVersion →
      h.declared = Geometry.ofNumbers h.capacity h.unitSize := by
    intro magic version
    rw [declared, if_neg (not_not_intro magic), if_neg (not_not_intro version)]
  refine
    { numbers
      ok_iff := h.declared_eq_ok_iff
      counters := fun _ _ _ => rfl
      noHeader_iff := ?_
      otherVersion_iff := ?_
      badCapacity_iff := ?_
      emptyUnit_iff := ?_ }
  all_goals
    generalize h.declared = verdict at judged ⊢
    cases judged <;> simp_all [eq_comm]

end Header

/-! ## Texts line by line -/

/-- The entry of the first line comes before those of the others. -/
theorem Toml.readLines_of_line {cs rest : List Char} {entry : Option (String × Value)}
    (hline : readLine cs = some (entry, rest)) (hne : cs.isEmpty = false)
    (hlt : rest.length < cs.length) : readLines cs = (entry.toList ++ ·) <$> readLines rest := by
  rw [readLines, if_neg (Bool.eq_false_iff.1 hne), hline]
  exact dif_pos hlt

/-- The entries of some lines, if no key comes twice. -/
def Toml.distinct (table : Table) : Option Table :=
  if (table.map Prod.fst).eraseDups.length == table.length then some table else none

/-- What is read of a text is what is read of its lines, with a mark in front and without. -/
theorem Toml.readTable_cases (text : String) : readTable text = none
    ∨ ∃ cs, readTable text = readLines cs >>= distinct := by
  unfold readTable
  dsimp only
  split <;> split
  · exact .inl rfl
  · exact .inr ⟨_, rfl⟩
  · exact .inl rfl
  · exact .inr ⟨_, rfl⟩

theorem Toml.readTable_eq {text : String} (hmark : text.toList.head? ≠ some (Char.ofNat 0xFEFF))
    (hreturn : hasLoneReturn text.toList = false) :
    readTable text = readLines text.toList >>= distinct := by
  unfold readTable
  dsimp only
  split
  · rename_i rest hcs
    rw [hcs] at hmark
    exact absurd rfl hmark
  · rw [hreturn]
    rfl

/-- The table of a text without a mark in front, from its lines. -/
theorem Toml.readTable_of_lines {text : String} {table : Table}
    (hmark : text.toList.head? ≠ some (Char.ofNat 0xFEFF))
    (hreturn : hasLoneReturn text.toList = false) (hlines : readLines text.toList = some table)
    (hdistinct : (table.map Prod.fst).eraseDups.length = table.length) :
    readTable text = some table := by
  rw [readTable_eq hmark hreturn, hlines]
  exact if_pos (beq_iff_eq.2 hdistinct)

/-! ## What was accepted can be used -/

namespace Settings

/-- A ring can be made by these settings, and be found again. -/
structure Usable (s : Settings) (g : Geometry) : Prop where
  ofNumbers_eq : Geometry.ofNumbers s.capacity s.unitSize = .ok g
  /-- the header that is written for it is believed -/
  declared_eq : (Header.ofGeometry g).declared = .ok g
  /-- also when it is read from a file that it was written to -/
  found_eq : ∀ b : Bytes, Header.size ≤ b.size →
    (Header.decode (b.write 0 (Header.ofGeometry g).encode)).declared = .ok g
  /-- a region that holds the bytes of the settings holds the ring -/
  halves_eq : ∀ data : Region, s.size.toNat ≤ data.len →
    ∃ ring, (Header.ofGeometry g).ringOver data = .ok ring
      ∧ ring.halves = .ok { geometry := g, region := data, head := 0, tail := 1, signal := some 0 }

/-- A ring that is bound to everything can be split. -/
theorem halves_ringOver {g : Geometry} {data : Region} (hlong : g.size.toNat ≤ data.len) :
    ∃ ring, (Header.ofGeometry g).ringOver data = .ok ring
      ∧ ring.halves = .ok { geometry := g, region := data, head := 0, tail := 1, signal := some 0 } := by
  rw [Header.ringOver, Header.declared_ofGeometry]
  refine ⟨_, rfl, ?_⟩
  show (if data.len < g.size.toNat then _ else _ : Except Refusal Halves) = _
  rw [if_neg (Nat.not_lt.2 hlong)]
  rfl

variable {s : Settings}

theorem usable_of_check (accepted : s.check = .ok ()) : ∃ g, s.Usable g := by
  obtain ⟨g, hg⟩ := s.checksAgree.ok.2 (.inl accepted)
  obtain ⟨hsize, -⟩ := s.checksAgree.size_eq g hg
  exact ⟨g, {
    ofNumbers_eq := hg
    declared_eq := Header.declared_ofGeometry g
    found_eq := by
      intro b hb
      rw [Header.decode_write_encode _ b hb]
      exact Header.declared_ofGeometry g
    halves_eq := by
      intro data hdata
      exact halves_ringOver (by rwa [hsize]) }⟩

/-- Settings that a table gives have been checked. -/
theorem check_of_ofTable {table : Toml.Table} (h : ofTable table = .ok s) : s.check = .ok () := by
  rw [ofTable] at h
  cases hs : ofTable? table with
  | none => rw [hs] at h; cases h
  | some s' =>
    rw [hs] at h
    cases hcheck : s'.check with
    | error e => simp only [hcheck] at h; cases h
    | ok =>
      simp only [hcheck] at h
      obtain rfl := Except.ok.inj h
      exact hcheck

theorem check_of_ofTextBy {read : String → Option Toml.Table} {text : String}
    (h : ofTextBy read text = .ok s) : s.check = .ok () := by
  rw [ofTextBy] at h
  split at h
  · cases h
  · exact check_of_ofTable h

/-- A text gives what its table gives, if no value of that is impossible. -/
theorem ofText_of_firstFault {text : String} {table : Toml.Table}
    (htable : Toml.readTable text = some table) (hgiven : ofTable? table = some s)
    (hfault : s.firstFault = none) : ofText text = .ok s := by
  have hcheck : s.check = .ok () := by rw [check, hfault]
  rw [ofText, ofTextBy, htable]
  dsimp only
  rw [ofTable, hgiven]
  dsimp only
  rw [hcheck]
  rfl

/-- **The three verdicts agree**, whatever the settings are and whatever a header holds.  So nothing
    fails any more once a text was accepted, in whatever way its table was read. -/
theorem three_checks_agree : (∀ s : Settings, s.ChecksAgree) ∧ (∀ h : Header, h.Believed)
    ∧ ∀ read text s, ofTextBy read text = .ok s → ∃ g, s.Usable g :=
  ⟨checksAgree, Header.believed, fun _ _ _ h => usable_of_check (check_of_ofTextBy h)⟩

/-- Settings that differ from the defaults in one of the two numbers. -/
theorem three_checks_agree_scale : ofText "scale = 3" = .ok { unitSize := 3 }
    ∧ ∃ g, Usable { unitSize := 3 } g := by
  have hline : Toml.readLine "scale = 3".toList = some (some ("scale", .integer 3), []) := rfl
  have hlines : Toml.readLines "scale = 3".toList = some [("scale", .integer 3)] := by
    rw [Toml.readLines_of_line hline rfl (by decide), Toml.readLines]
    rfl
  have htable := Toml.readTable_of_lines (by decide) rfl hlines rfl
  have htext : ofText "scale = 3" = .ok { unitSize := 3 } :=
    ofText_of_firstFault htable rfl (by decide)
  exact ⟨htext, three_checks_agree.2.2 Toml.readTable _ _ htext⟩

end Settings

end SharedRing
