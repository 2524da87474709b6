/-
  Settings laid over the defaults.

  A table is laid over the defaults entry by entry, from its beginning to its end.  What comes of it
  can be said without going through it: the table must say nothing that is no setting
  (`Settings.Acceptable`), and then there is exactly one candidate, which has what the table gives
  and the default where it gives nothing (`Settings.Overlaid`).  Since neither speaks of a first or a
  last entry, the order of the entries makes no difference, and neither does one that repeats a
  default.  Only then are the values judged.
-/
import SharedRing.Proofs.Verdicts

namespace SharedRing

/-! ## What a value can be read as -/

namespace Toml.Value

variable {v : Value}

theorem text?_eq_some_iff {a : String} : v.text? = some a ↔ v = .text a := by
  cases v <;> simp [text?]

/-- A bounded number is read from an integer that is that number. -/
theorem below?_eq_some_iff {bound n : Nat} : v.below? bound = some n ↔ v = .integer n ∧ n < bound := by
  cases v with
  | integer m =>
    simp only [below?, Bool.and_eq_true, decide_eq_true_eq, Option.ite_none_right_eq_some,
      Option.some.injEq, integer.injEq]
    omega
  | text _ | real _ | boolean _ | compound => simp [below?]

theorem word32?_eq_some_iff {a : UInt32} : v.word32? = some a ↔ v = .integer a.toNat := by
  rw [word32?, Option.map_eq_map, Option.map_eq_some_iff]
  constructor
  · rintro ⟨n, hn, rfl⟩
    obtain ⟨rfl, hlt⟩ := below?_eq_some_iff.1 hn
    rw [UInt32.toNat_ofNat_of_lt' hlt]
  · intro hv
    exact ⟨a.toNat, below?_eq_some_iff.2 ⟨hv, a.toNat_lt⟩, UInt32.ofNat_toNat⟩

theorem word64?_eq_some_iff {a : UInt64} : v.word64? = some a ↔ v = .integer a.toNat := by
  rw [word64?, Option.map_eq_map, Option.map_eq_some_iff]
  constructor
  · rintro ⟨n, hn, rfl⟩
    obtain ⟨rfl, hlt⟩ := below?_eq_some_iff.1 hn
    rw [UInt64.toNat_ofNat_of_lt' hlt]
  · intro hv
    exact ⟨a.toNat, below?_eq_some_iff.2 ⟨hv, a.toNat_lt⟩, UInt64.ofNat_toNat⟩

/-- The values that stand for a fraction. -/
def IsFraction (v : Value) (x : Float) : Prop :=
  v = .real x ∨ ∃ n : Int, v = .integer n ∧ -2 ^ 63 ≤ n ∧ n < 2 ^ 64 ∧ Float.ofInt n = x

theorem real?_eq_some_iff {x : Float} : v.real? = some x ↔ v.IsFraction x := by
  cases v with
  | real y => simp [real?, IsFraction]
  | integer m =>
    simp only [real?, IsFraction, Bool.and_eq_true, decide_eq_true_eq,
      Option.ite_none_right_eq_some, Option.some.injEq, integer.injEq, reduceCtorEq, false_or]
    constructor
    · rintro ⟨⟨hlow, hhigh⟩, hx⟩
      exact ⟨m, rfl, by omega, by omega, hx⟩
    · rintro ⟨_, rfl, hlow, hhigh, hx⟩
      exact ⟨⟨by omega, by omega⟩, hx⟩
  | text _ | boolean _ | compound => simp [real?, IsFraction]

/-- A value stands for one fraction at most. -/
theorem IsFraction.unique {x y : Float} (hx : v.IsFraction x) (hy : v.IsFraction y) : x = y :=
  Option.some.inj ((real?_eq_some_iff.2 hx).symm.trans (real?_eq_some_iff.2 hy))

end Toml.Value

namespace Settings

/-! ## Keys -/

/-- What a table can give. -/
inductive Key where
  | path
  | logging
  | capacity
  | unitSize
  | messageBytes
  | milliseconds
  | noticeFraction
deriving DecidableEq

namespace Key

def name : Key → String
  | .path => "shm_file_path"
  | .logging => "log_level"
  | .capacity => "capacity_units"
  | .unitSize => "scale"
  | .messageBytes => "message_size"
  | .milliseconds => "duration_ms"
  | .noticeFraction => "notify_fraction"

/-- The value is the one that settings have under a key. -/
def Holds (v : Toml.Value) (s : Settings) : Key → Prop
  | .path => v = .text s.path
  | .logging => v = .text s.logging
  | .capacity => v = .integer s.capacity.toNat
  | .unitSize => v = .integer s.unitSize.toNat
  | .messageBytes => v = .integer s.messageBytes.toNat
  | .milliseconds => v = .integer s.milliseconds.toNat
  | .noticeFraction => v.IsFraction s.noticeFraction

/-- Two settings have the same under a key. -/
def Same (s s' : Settings) : Key → Prop
  | .path => s.path = s'.path
  | .logging => s.logging = s'.logging
  | .capacity => s.capacity = s'.capacity
  | .unitSize => s.unitSize = s'.unitSize
  | .messageBytes => s.messageBytes = s'.messageBytes
  | .milliseconds => s.milliseconds = s'.milliseconds
  | .noticeFraction => s.noticeFraction = s'.noticeFraction

variable {key key' : Key} {s s' s'' : Settings} {v : Toml.Value}

theorem name_inj (h : key.name = key'.name) : key = key' := by
  cases key <;> cases key' <;> first | rfl | exact absurd h (by decide)

theorem Same.refl (s : Settings) : key.Same s s := by cases key <;> rfl

theorem Same.trans (h : key.Same s s') (h' : key.Same s' s'') : key.Same s s'' := by
  cases key <;> exact Eq.trans h h'

theorem Same.symm (h : key.Same s s') : key.Same s' s := by
  cases key <;> exact Eq.symm h

theorem Holds.congr (h : key.Holds v s) (hsame : key.Same s s') : key.Holds v s' := by
  cases key <;> (unfold Holds at h ⊢; unfold Same at hsame; rwa [← hsame])

/-- A value stands for one thing at most. -/
theorem Holds.same (h : key.Holds v s) (h' : key.Holds v s') : key.Same s s' := by
  cases key with
  | noticeFraction => exact Toml.Value.IsFraction.unique h h'
  | path | logging => exact Toml.Value.text.inj (h.symm.trans h')
  | capacity | unitSize =>
    exact UInt32.toNat_inj.1 (Int.ofNat.inj (Toml.Value.integer.inj (h.symm.trans h')))
  | messageBytes | milliseconds =>
    exact UInt64.toNat_inj.1 (Int.ofNat.inj (Toml.Value.integer.inj (h.symm.trans h')))

end Key

/-- Settings are what they have under their keys. -/
theorem eq_of_same {s s' : Settings} (h : ∀ key, Key.Same s s' key) : s = s' := by
  obtain ⟨path, logging, capacity, unitSize, messageBytes, milliseconds, noticeFraction⟩ := s
  obtain rfl := h .path
  obtain rfl := h .logging
  obtain rfl := h .capacity
  obtain rfl := h .unitSize
  obtain rfl := h .messageBytes
  obtain rfl := h .milliseconds
  obtain rfl := h .noticeFraction
  rfl

/-! ## One entry -/

variable {s s' base : Settings} {v : Toml.Value}

/-- An entry replaces what settings have under its key, and nothing else. -/
theorem holds_of_set? {key : Key} (h : s.set? key.name v = some s') :
    key.Holds v s' ∧ ∀ other, other ≠ key → Key.Same s' s other := by
  -- each key has its own reading, and each puts what was read into one field
  cases key <;> (
    obtain ⟨a, hread, rfl⟩ := Option.map_eq_some_iff.1 h
    refine ⟨?_, fun other hne => by cases other <;> first | rfl | exact absurd rfl hne⟩)
  case path | logging => exact Toml.Value.text?_eq_some_iff.1 hread
  case capacity | unitSize => exact Toml.Value.word32?_eq_some_iff.1 hread
  case messageBytes | milliseconds => exact Toml.Value.word64?_eq_some_iff.1 hread
  case noticeFraction => exact Toml.Value.real?_eq_some_iff.1 hread

/-- A value that some settings have under a key can be given to any. -/
theorem isSome_set? {key : Key} (s : Settings) (h : key.Holds v s') :
    (s.set? key.name v).isSome := by
  have isSome_map : ∀ {α : Type} {read : Option α} {a : α} {f : α → Settings}, read = some a →
      (f <$> read).isSome := by
    rintro α _ a f rfl
    rfl
  cases key with
  | path | logging => exact isSome_map (Toml.Value.text?_eq_some_iff.2 h)
  | capacity | unitSize => exact isSome_map (Toml.Value.word32?_eq_some_iff.2 h)
  | messageBytes | milliseconds => exact isSome_map (Toml.Value.word64?_eq_some_iff.2 h)
  | noticeFraction => exact isSome_map (Toml.Value.real?_eq_some_iff.2 h)

/-- There is nothing to set under any other name. -/
theorem exists_key_of_set? {name : String} (h : s.set? name v = some s') :
    ∃ key : Key, key.name = name := by
  unfold set? at h
  split at h
  · exact ⟨.path, rfl⟩
  · exact ⟨.logging, rfl⟩
  · exact ⟨.capacity, rfl⟩
  · exact ⟨.unitSize, rfl⟩
  · exact ⟨.messageBytes, rfl⟩
  · exact ⟨.milliseconds, rfl⟩
  · exact ⟨.noticeFraction, rfl⟩
  · cases h

/-- A setting of this name can have this value. -/
def Acceptable (entry : String × Toml.Value) : Prop :=
  ∃ (key : Key) (s : Settings), key.name = entry.1 ∧ key.Holds entry.2 s

theorem isSome_set?_iff (s : Settings) (entry : String × Toml.Value) :
    (s.set? entry.1 entry.2).isSome ↔ Acceptable entry := by
  constructor
  · intro h
    obtain ⟨s', hs'⟩ := Option.isSome_iff_exists.1 h
    obtain ⟨key, hkey⟩ := exists_key_of_set? hs'
    rw [← hkey] at hs'
    exact ⟨key, s', hkey, (holds_of_set? hs').1⟩
  · rintro ⟨key, s', hkey, hholds⟩
    rw [← hkey]
    exact isSome_set? s hholds

/-! ## All entries -/

/-- Settings that have what a table gives, and what there was before where it gives nothing. -/
structure Overlaid (base : Settings) (table : Toml.Table) (s : Settings) : Prop where
  given : ∀ key v, (Key.name key, v) ∈ table → key.Holds v s
  kept : ∀ key, Key.name key ∉ table.map Prod.fst → key.Same s base

/-- There is only one candidate. -/
theorem Overlaid.unique {table : Toml.Table} (h : Overlaid base table s)
    (h' : Overlaid base table s') : s = s' := by
  refine eq_of_same fun key => ?_
  by_cases hmem : key.name ∈ table.map Prod.fst
  · obtain ⟨⟨name, v⟩, hentry, rfl⟩ := List.mem_map.1 hmem
    exact (h.given key v hentry).same (h'.given key v hentry)
  · exact (h.kept key hmem).trans (h'.kept key hmem).symm

/-- Everything is laid over if everything can be. -/
theorem isSome_foldlM_iff (base : Settings) (table : Toml.Table) :
    (table.foldlM (fun (s : Settings) entry => s.set? entry.1 entry.2) base).isSome
      ↔ ∀ entry ∈ table, Acceptable entry := by
  induction table generalizing base with
  | nil => simp
  | cons entry rest ih =>
    rw [List.foldlM_cons, List.forall_mem_cons, ← isSome_set?_iff base entry]
    cases base.set? entry.1 entry.2 with
    | none => simp
    | some next => simpa using ih next

/-- What comes of it, if no name comes twice. -/
theorem overlaid_of_foldlM {table : Toml.Table} (hnodup : (table.map Prod.fst).Nodup)
    (h : table.foldlM (fun (s : Settings) entry => s.set? entry.1 entry.2) base = some s) :
    Overlaid base table s := by
  induction table generalizing base with
  | nil =>
    obtain rfl := Option.some.inj h
    exact ⟨fun _ _ hmem => absurd hmem List.not_mem_nil, fun key _ => Key.Same.refl _⟩
  | cons entry rest ih =>
    obtain ⟨name, v⟩ := entry
    obtain ⟨hfresh, hrest⟩ := List.nodup_cons.1 hnodup
    obtain ⟨next, hset, hnext⟩ := Option.bind_eq_some_iff.1 h
    obtain ⟨key, rfl⟩ := exists_key_of_set? hset
    obtain ⟨hholds, hothers⟩ := holds_of_set? hset
    have overlaid := ih hrest hnext
    constructor
    · intro key' v' hmem
      rcases List.mem_cons.1 hmem with heq | hmem
      · -- the entries after it leave this one
        obtain ⟨hname, rfl⟩ := Prod.mk.inj heq
        obtain rfl := Key.name_inj hname
        exact hholds.congr (overlaid.kept _ hfresh).symm
      · exact overlaid.given key' v' hmem
    · intro key' hnot
      obtain ⟨hne, hnot⟩ := not_or.1 (List.mem_cons.not.1 hnot)
      exact (overlaid.kept key' hnot).trans (hothers key' fun heq => hne (congrArg Key.name heq))

/-! ## What a table comes to -/

variable {table table' : Toml.Table}

/-- The verdict on a candidate. -/
inductive Judged (s : Settings) : Except SettingsError Settings → Prop
  | accepted (possible : ∀ f, s.Possible f) : Judged s (.ok s)
  | refused {f : Setting} (first : s.FirstImpossible f) : Judged s (.error (.impossible f))

theorem Judged.ne_malformed {verdict : Except SettingsError Settings} (judged : s.Judged verdict) :
    verdict ≠ .error .malformed := by
  cases judged with
  | accepted possible => simp
  | refused first => simp

theorem ofTable_of_none (h : ofTable? table = none) : ofTable table = .error .malformed := by
  rw [ofTable, h]
  rfl

theorem judged_of_some (h : ofTable? table = some s) : s.Judged (ofTable table) := by
  rw [ofTable, h]
  show s.Judged (s.check >>= fun _ => pure s)
  rw [check]
  obtain ⟨f, hfault, first⟩ | ⟨hfault, possible⟩ := s.firstFault_cases
  · rw [hfault]
    exact .refused first
  · rw [hfault]
    exact .accepted possible

theorem isSome_ofTable?_iff : (ofTable? table).isSome ↔ ∀ entry ∈ table, Acceptable entry :=
  isSome_foldlM_iff {} table

/-- Two tables come to the same if both may be believed or neither, and they have a candidate in
    common. -/
theorem ofTable_congr (hnodup : (table.map Prod.fst).Nodup) (hnodup' : (table'.map Prod.fst).Nodup)
    (hacceptable : (∀ entry ∈ table, Acceptable entry) ↔ ∀ entry ∈ table', Acceptable entry)
    (hoverlaid : ∀ s, Overlaid {} table s → Overlaid {} table' s) :
    ofTable table = ofTable table' := by
  rw [← isSome_ofTable?_iff, ← isSome_ofTable?_iff] at hacceptable
  cases hs : ofTable? table with
  | none =>
    have hnone : ofTable? table' = none := by
      rw [← Option.not_isSome_iff_eq_none, ← hacceptable, hs]
      exact Bool.noConfusion
    rw [ofTable_of_none hs, ofTable_of_none hnone]
  | some s =>
    obtain ⟨s', hs'⟩ := Option.isSome_iff_exists.1 (hacceptable.1 (by rw [hs]; rfl))
    obtain rfl : s = s' :=
      (hoverlaid s (overlaid_of_foldlM hnodup hs)).unique (overlaid_of_foldlM hnodup' hs')
    rw [ofTable, ofTable, hs, hs']

/-- Nothing is said of a first or a last entry. -/
theorem Overlaid.perm (h : Overlaid base table s) (hperm : table.Perm table') :
    Overlaid base table' s where
  given := fun key v hmem => h.given key v (hperm.mem_iff.2 hmem)
  kept := fun key hnot => h.kept key ((hperm.map _).mem_iff.not.2 hnot)

/-- An entry that repeats what there was before may be left out. -/
theorem Overlaid.omit {before after : Toml.Table} {key : Key}
    (h : Overlaid base (before ++ (key.name, v) :: after) s) (hbase : key.Holds v base) :
    Overlaid base (before ++ after) s := by
  have hself : (key.name, v) ∈ before ++ (key.name, v) :: after :=
    List.mem_append_right _ List.mem_cons_self
  constructor
  · intro key' v' hmem
    refine h.given key' v' ?_
    rw [List.mem_append] at hmem ⊢
    exact hmem.imp_right (List.mem_cons_of_mem _)
  · intro key' hnot
    by_cases heq : key' = key
    · rw [heq]
      exact (h.given key v hself).same hbase
    · refine h.kept key' fun hmem => hnot ?_
      have hname : key'.name ≠ key.name := fun hname => heq (Key.name_inj hname)
      simpa [hname] using hmem

/-- What a table with these entries comes to. -/
structure Overlays (table : Toml.Table) : Prop where
  /-- an unknown name or a value that cannot stand under its name is a fault of the table, whatever
      else is wrong -/
  malformed_iff : ofTable table = .error .malformed ↔ ∃ entry ∈ table, ¬ Acceptable entry
  /-- otherwise one candidate is judged: the defaults with what is given in place of them -/
  judged : (∀ entry ∈ table, Acceptable entry) →
    ∃ s, Overlaid {} table s ∧ (∀ s', Overlaid {} table s' → s' = s) ∧ s.Judged (ofTable table)
  /-- the order of the entries makes no difference -/
  perm_eq : ∀ table', table.Perm table' → ofTable table' = ofTable table
  /-- neither does an entry that gives a default -/
  omit_eq : ∀ (before after : Toml.Table) (key : Key) (v : Toml.Value),
    table = before ++ (key.name, v) :: after → key.Holds v {} →
      ofTable (before ++ after) = ofTable table

theorem overlays (hnodup : (table.map Prod.fst).Nodup) : Overlays table := by
  constructor
  · constructor
    · intro hmalformed
      by_contra hnone
      push Not at hnone
      obtain ⟨s, hs⟩ := Option.isSome_iff_exists.1 (isSome_ofTable?_iff.2 hnone)
      exact (judged_of_some hs).ne_malformed hmalformed
    · rintro ⟨entry, hmem, hnot⟩
      refine ofTable_of_none (Option.not_isSome_iff_eq_none.1 fun h => hnot ?_)
      exact isSome_ofTable?_iff.1 h entry hmem
  · intro hall
    obtain ⟨s, hs⟩ := Option.isSome_iff_exists.1 (isSome_ofTable?_iff.2 hall)
    have overlaid : Overlaid {} table s := overlaid_of_foldlM hnodup hs
    exact ⟨s, overlaid, fun s' h' => h'.unique overlaid, judged_of_some hs⟩
  · intro table' hperm
    refine (ofTable_congr hnodup ((hperm.map _).nodup_iff.1 hnodup) ?_ fun s h => h.perm hperm).symm
    exact forall_congr' fun entry => imp_congr_left hperm.mem_iff
  · rintro before after key v rfl hdefault
    have hsub : (before ++ after).Sublist (before ++ (key.name, v) :: after) :=
      List.Sublist.append_left (List.sublist_cons_self _ _) _
    refine (ofTable_congr hnodup (hnodup.sublist (hsub.map _)) ?_ fun s h => h.omit hdefault).symm
    have hself : Acceptable (key.name, v) := ⟨key, {}, rfl, hdefault⟩
    simp only [List.forall_mem_append, List.forall_mem_cons, hself, true_and]

end Settings

/-! ## From a text -/

section Repetitions

variable {α : Type} [BEq α]

theorem length_eraseDups_le (xs : List α) : xs.eraseDups.length ≤ xs.length := by
  -- what is left of the rest is no part of the list, so the induction is on the length
  induction hlength : xs.length using Nat.strong_induction_on generalizing xs with
  | h n ih =>
    cases xs with
    | nil => exact Nat.zero_le _
    | cons x xs =>
      have hfilter := List.length_filter_le (fun b => !b == x) xs
      rw [List.length_cons] at hlength
      have hrest := ih _ (by omega) (xs.filter fun b => !b == x) rfl
      rw [List.eraseDups_cons, List.length_cons]
      omega

/-- A list that loses nothing with its repetitions has none. -/
theorem nodup_of_length_eraseDups [LawfulBEq α] {xs : List α}
    (h : xs.eraseDups.length = xs.length) : xs.Nodup := by
  induction xs with
  | nil => exact List.nodup_nil
  | cons x xs ih =>
    rw [List.eraseDups_cons, List.length_cons, List.length_cons] at h
    have hfilter := List.length_filter_le (fun b => !b == x) xs
    have hdups := length_eraseDups_le (xs.filter fun b => !b == x)
    -- nothing was taken away on the way, so the first one does not come again
    have hsame : xs.filter (fun b => !b == x) = xs := List.filter_eq_self.2
      (List.length_filter_eq_length_iff.1 (by omega))
    rw [hsame] at h
    refine List.nodup_cons.2 ⟨fun hmem => ?_, ih (by omega)⟩
    simpa using List.filter_eq_self.1 hsame x hmem

end Repetitions

theorem Toml.nodup_of_readTable {text : String} {table : Table} (h : readTable text = some table) :
    (table.map Prod.fst).Nodup := by
  obtain hnone | ⟨cs, hlines⟩ := readTable_cases text
  · exact absurd (h.symm.trans hnone) (Option.some_ne_none table)
  · obtain ⟨read, -, hread⟩ := Option.bind_eq_some_iff.1 (hlines.symm.trans h)
    obtain ⟨hdistinct, hsame⟩ := Option.ite_none_right_eq_some.1 hread
    obtain rfl := Option.some.inj hsame
    refine nodup_of_length_eraseDups ?_
    rw [List.length_map]
    exact beq_iff_eq.1 hdistinct

namespace Settings

/-- **Settings are the defaults with a table laid over them.**  A text gives what its table gives, in
    whatever way that is read, and is malformed if it has none.  The tables that are read here are such
    that no key comes twice. -/
theorem settings_overlay_defaults :
    (∀ table : Toml.Table, (table.map Prod.fst).Nodup → Overlays table)
      ∧ (∀ (read : String → Option Toml.Table) (text : String),
        (read text = none → ofTextBy read text = .error .malformed)
          ∧ ∀ table, read text = some table → ofTextBy read text = ofTable table)
      ∧ ∀ text table, Toml.readTable text = some table → (table.map Prod.fst).Nodup := by
  refine ⟨fun _ => overlays, fun read text => ⟨fun h => ?_, fun table h => ?_⟩,
    fun _ _ h => Toml.nodup_of_readTable h⟩
  · rw [ofTextBy, h]
  · rw [ofTextBy, h]

/-- A table with a name that is none, although its unit size would be impossible as well; one that
    gives two values and repeats a default; a text without entries, and one that is no document. -/
theorem settings_overlay_defaults_mixed :
    ofTable [("scale", .integer 0), ("colour", .compound)] = .error .malformed
      ∧ (∃ s : Settings, s.messageBytes.toNat = 7 ∧ s.unitSize = 1 ∧ s.Judged (ofTable
        [("message_size", .integer 7), ("scale", .integer 1), ("notify_fraction", .integer 1)]))
      ∧ ofTable [("message_size", .integer 7), ("notify_fraction", .integer 1)]
        = ofTable [("message_size", .integer 7), ("scale", .integer 1), ("notify_fraction", .integer 1)]
      ∧ ofText "" = ofTable [] ∧ ofText "=" = .error .malformed := by
  obtain ⟨tables, texts, -⟩ := settings_overlay_defaults
  have hunknown : ¬ Acceptable ("colour", .compound) := by
    rintro ⟨key, s, hname, -⟩
    cases key <;> exact absurd hname (by decide)
  have faulty := tables [("scale", .integer 0), ("colour", .compound)] (by decide)
  have good := tables [("message_size", .integer 7), ("scale", .integer 1),
    ("notify_fraction", .integer 1)] (by decide)
  have hall : ∀ entry ∈ ([("message_size", .integer 7), ("scale", .integer 1),
      ("notify_fraction", .integer 1)] : Toml.Table), Acceptable entry := by
    simp only [List.forall_mem_cons, List.not_mem_nil, false_implies, implies_true, and_true]
    exact ⟨⟨.messageBytes, { messageBytes := 7 }, rfl, rfl⟩, ⟨.unitSize, {}, rfl, rfl⟩,
      .noticeFraction, { noticeFraction := Float.ofInt 1 }, rfl,
      .inr ⟨1, rfl, by decide, by decide, rfl⟩⟩
  obtain ⟨s, overlaid, -, judged⟩ := good.judged hall
  have hmessage : Toml.Value.integer 7 = .integer s.messageBytes.toNat :=
    overlaid.given .messageBytes _ List.mem_cons_self
  have hunit : Toml.Value.integer 1 = .integer s.unitSize.toNat :=
    overlaid.given .unitSize _ (List.mem_cons_of_mem _ List.mem_cons_self)
  have hnone : Toml.readTable "=" = none := by
    have hlines : Toml.readLines "=".toList = none := by rw [Toml.readLines]; rfl
    rw [Toml.readTable_eq (by decide) rfl, hlines]
    rfl
  refine ⟨faulty.malformed_iff.2 ⟨_, List.mem_cons_of_mem _ List.mem_cons_self, hunknown⟩,
    ⟨s, ?_, ?_, judged⟩,
    good.omit_eq [("message_size", .integer 7)] [("notify_fraction", .integer 1)] .unitSize _ rfl rfl,
    (texts Toml.readTable "").2 [] (by cbv), (texts Toml.readTable "=").1 hnone⟩
  · exact (Int.ofNat.inj (Toml.Value.integer.inj hmessage)).symm
  · exact UInt32.toNat_inj.1 (Int.ofNat.inj (Toml.Value.integer.inj hunit)).symm

end Settings

end SharedRing
