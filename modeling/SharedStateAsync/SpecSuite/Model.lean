/-
The executable model of the spec suite (`tests/spec-suite/model.py`).

The suite has its own merge, over dictionaries, with four strategies: `v1` is what is
deployed, `v1i` what a guard of the deployed code was meant to do, `v2` orders copies by a
version counter, and `v2r` restricts the recovery of a lost counter to entries that were
inserted since the node has booted.

* `Entry`, `Strategy`, `MergeResult`: the data;
* `mergeItem`, `merge`, `bleach`, `authorInsert`: the functions of the model;
* `kept`: which copy of a key a merge leaves;
* `merge_get?`, `bleach_get?`: what a merge and a bleach do, key by key.
-/
import SharedStateAsync.Basic
import SharedStateAsync.Lib.Dict

namespace SharedStateAsync

namespace SpecSuite

variable {D : Type}

/-- `Entry`. -/
structure Entry (D : Type) where
  author : StdString
  ttl : ℤ
  data : D
  version : ℤ := 0
  /-- `local`: produced by a local insert since boot. -/
  isLocal : Bool := false

inductive Strategy where
  | v1
  | v1i
  | v2
  | v2r
  deriving DecidableEq, Repr

/-- The kinds of events a merge records. -/
inductive EventKind where
  | insert
  | replace
  | replaceTiebreak
  | keep
  | discardIll
  | recover
  deriving DecidableEq, Repr

/-- `MergeResult`. -/
structure MergeResult where
  significant : ℤ := 0
  allChanges : ℤ := 0
  events : List (EventKind × StdString) := []

/-- The state of a node: its entries by key. -/
abbrev State (D : Type) : Type := Dict StdString (Entry D)

/-! ### Merge -/

/-- An entry that comes from the wire is never of local origin. -/
def Entry.adopted (e : Entry D) : Entry D := { e with isLocal := false }

/-- `_adopt`. -/
def adopt (state : State D) (k : StdString) (e : Entry D) : State D := state.set k e.adopted

/-- Record a change of the given kind. -/
def MergeResult.change (r : MergeResult) (kind : EventKind) (k : StdString) (significant : Bool) :
    MergeResult where
  significant := if significant then r.significant + 1 else r.significant
  allChanges := r.allChanges + 1
  events := r.events ++ [(kind, k)]

/-- Record that nothing changes. -/
def MergeResult.note (r : MergeResult) (kind : EventKind) (k : StdString) : MergeResult :=
  { r with events := r.events ++ [(kind, k)] }

/-- The recovery of a lost counter: keep the data, go past the version of the echo. -/
def recoveryApplies (strategy : Strategy) (remote own : Bool) (known e : Entry D) : Bool :=
  let applies := remote && own && decide (e.version > known.version)
  if strategy = .v2r then applies && known.isLocal else applies

/-- The TTL from which on the strategies of the first version replace. -/
def thresholdOk (strategy : Strategy) (remote own : Bool) (known e : Entry D) : Bool :=
  if strategy = .v1i then decide (e.ttl ≥ if remote && own then known.ttl + 1 else known.ttl)
  else decide (e.ttl ≥ known.ttl)

variable [BEq D]

/-- The body of the loop in `merge`. -/
def mergeItem (remote : Bool) (hostname : StdString) (strategy : Strategy)
    (acc : State D × MergeResult) (k : StdString) (e : Entry D) : State D × MergeResult :=
  match acc.1.get? k with
  | none => (adopt acc.1 k e, acc.2.change .insert k true)
  | some known =>
      let own := known.author == hostname
      if strategy = .v2 ∨ strategy = .v2r then
        if recoveryApplies strategy remote own known e then
          (acc.1.set k { known with version := e.version + 1 }, acc.2.change .recover k false)
        else if e.version > known.version then
          (adopt acc.1 k e, acc.2.change .replace k (known.data != e.data))
        else if e.version = known.version ∧ e.ttl > known.ttl then
          (adopt acc.1 k e, acc.2.change .replaceTiebreak k false)
        else (acc.1, acc.2.note .keep k)
      else if remote && own && decide (e.ttl > known.ttl) then (acc.1, acc.2.note .discardIll k)
      else if thresholdOk strategy remote own known e then
        (adopt acc.1 k e, acc.2.change .replace k (known.data != e.data))
      else (acc.1, acc.2.note .keep k)

/-- `merge`: the state afterwards and the result. -/
def merge (state slice : State D) (remote : Bool) (hostname : StdString) (strategy : Strategy) :
    State D × MergeResult :=
  slice.items.foldl (fun acc p => mergeItem remote hostname strategy acc p.1 p.2) (state, {})

omit [BEq D] in
/-- Which copy of a key a merge leaves. -/
def kept (remote : Bool) (hostname : StdString) (strategy : Strategy) :
    Option (Entry D) → Entry D → Entry D
  | none, e => e.adopted
  | some known, e =>
      let own := known.author == hostname
      if strategy = .v2 ∨ strategy = .v2r then
        if recoveryApplies strategy remote own known e then { known with version := e.version + 1 }
        else if e.version > known.version ∨ e.version = known.version ∧ e.ttl > known.ttl then
          e.adopted
        else known
      else if remote && own && decide (e.ttl > known.ttl) then known
      else if thresholdOk strategy remote own known e then e.adopted
      else known

/-- A merge touches one key at a time. -/
lemma keyedLoop_mergeItem (remote : Bool) (hostname : StdString) (strategy : Strategy) :
    KeyedLoop (fun (acc : State D × MergeResult) k => acc.1.get? k)
      (mergeItem remote hostname strategy)
      fun known e => some (kept remote hostname strategy known e) := by
  intro acc k e a
  have hadopt : (adopt acc.1 k e).get? a = if k = a then some e.adopted else acc.1.get? a :=
    Dict.get?_set _ _ _ _
  dsimp only
  rw [mergeItem]
  cases hknown : acc.1.get? k with
  | none => exact hadopt
  | some known =>
      have hsame : acc.1.get? a = if k = a then some known else acc.1.get? a := by
        split_ifs with hka
        · rw [← hka, hknown]
        · rfl
      simp only [kept]
      by_cases hv2 : strategy = .v2 ∨ strategy = .v2r
      · rw [if_pos hv2, if_pos hv2]
        by_cases hrec : recoveryApplies strategy remote (known.author == hostname) known e = true
        · rw [if_pos hrec, if_pos hrec]
          exact Dict.get?_set _ _ _ _
        · rw [if_neg hrec, if_neg hrec]
          by_cases hgt : e.version > known.version
          · rw [if_pos hgt, if_pos (Or.inl hgt)]
            exact hadopt
          · by_cases htie : e.version = known.version ∧ e.ttl > known.ttl
            · rw [if_neg hgt, if_pos htie, if_pos (Or.inr htie)]
              exact hadopt
            · rw [if_neg hgt, if_neg htie, if_neg (not_or.mpr ⟨hgt, htie⟩)]
              exact hsame
      · rw [if_neg hv2, if_neg hv2]
        by_cases hill : (remote && known.author == hostname && decide (e.ttl > known.ttl)) = true
        · rw [if_pos hill, if_pos hill]
          exact hsame
        · rw [if_neg hill, if_neg hill]
          by_cases hok : thresholdOk strategy remote (known.author == hostname) known e = true
          · rw [if_pos hok, if_pos hok]
            exact hadopt
          · rw [if_neg hok, if_neg hok]
            exact hsame

/-- **A merge, key by key.** -/
theorem merge_get? (state slice : State D) (remote : Bool) (hostname : StdString)
    (strategy : Strategy) (k : StdString) :
    (merge state slice remote hostname strategy).1.get? k
      = (slice.get? k).elim (state.get? k) fun e =>
          some (kept remote hostname strategy (state.get? k) e) :=
  Dict.foldl_keyed (keyedLoop_mergeItem remote hostname strategy) slice (state, {}) k

/-! ### Bleach and insert -/

omit [BEq D]

/-- `bleach`: the expired keys and the state afterwards, or nothing when it raises
`ValueError`. -/
def bleach (state : State D) (elapsed : ℤ) : Option (List StdString × State D) :=
  if elapsed < 1 then none
  else
    let expired := (state.items.filter fun p => p.2.ttl ≤ elapsed).map Prod.fst
    let state := expired.foldl Dict.del state
    some (expired, state.mapValues fun e => { e with ttl := e.ttl - elapsed })

/-- `insert_ttl`. -/
def insertTtl (strategy : Strategy) (bleachTtl updateInterval : ℤ) : ℤ :=
  if strategy = .v2 ∨ strategy = .v2r then bleachTtl else bleachTtl + updateInterval + 1

/-- `author_insert`. -/
def authorInsert (state : State D) (hostname key : StdString) (data : D) (strategy : Strategy)
    (bleachTtl updateInterval : ℤ) : State D :=
  let version :=
    if strategy = .v2 ∨ strategy = .v2r then (state.get? key).elim 1 fun prev => prev.version + 1
    else 0
  state.set key ⟨hostname, insertTtl strategy bleachTtl updateInterval, data, version, true⟩

lemma mem_expired {state : State D} {elapsed : ℤ} {k : StdString} :
    k ∈ (state.items.filter fun p => p.2.ttl ≤ elapsed).map Prod.fst ↔
      ∃ e, state.get? k = some e ∧ e.ttl ≤ elapsed := by
  constructor
  · intro hk
    obtain ⟨p, hp, rfl⟩ := List.mem_map.mp hk
    obtain ⟨hmem, hle⟩ := List.mem_filter.mp hp
    exact ⟨p.2, Dict.get?_eq_some.mpr hmem, of_decide_eq_true hle⟩
  · rintro ⟨e, he, hle⟩
    exact List.mem_map.mpr ⟨(k, e), List.mem_filter.mpr
      ⟨Dict.get?_eq_some.mp he, decide_eq_true hle⟩, rfl⟩

/-- **A bleach, key by key.** -/
theorem bleach_get? {state state' : State D} {elapsed : ℤ} {expired : List StdString}
    (h : bleach state elapsed = some (expired, state')) (k : StdString) :
    state'.get? k = (state.get? k).bind fun e =>
      if e.ttl ≤ elapsed then none else some { e with ttl := e.ttl - elapsed } := by
  rw [bleach] at h
  split_ifs at h
  obtain ⟨-, rfl⟩ := Prod.mk.inj (Option.some.inj h)
  rw [Dict.get?_mapValues, Dict.get?_foldl_del]
  simp only [mem_expired]
  cases hk : state.get? k with
  | none => simp
  | some e =>
      by_cases hle : e.ttl ≤ elapsed
      · simp [hle]
      · simp [hle]

end SpecSuite

end SharedStateAsync
