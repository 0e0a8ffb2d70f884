/-
What remote peers can do to the entries a node is the author of.

A data type changes through merges and bleaches. Remote merges meet two guards
in `SharedState::merge`: one discards a higher TTL on an entry of this host,
the other, `minUpdateTtl`, was meant to discard an equal one and is never
looked at. So an entry of this host is safe against every remote copy but one
of exactly its own TTL.

* `StoreOp`, `SharedState.apply`: the operations, and `entryAt_apply_merge`,
  `entryAt_apply_bleach`, what each does under one key;
* `OwnEntryProtected`: the entry keeps its author and its data until a bleach
  removes it, while the command line can still replace it;
* `ownEntryProtected_iff`: this holds along a run exactly when no remote merge
  brings a different copy of equal TTL;
* `own_mTtl_eq`, `ownLifeNotExtended_of_sameAuthor`: as long as no remote merge
  brings an equal TTL under another author, the TTL runs down with the bleaches,
  and the entry is gone when they use it up.
-/
import SharedStateAsync.Lib.Machine
import SharedStateAsync.Store.Merge

namespace SharedStateAsync

open Machine

/-- What happens to the state of one data type besides local inserts. -/
inductive StoreOp (D : Type) where
  | merge (peerAddr : SockAddr) (stateSlice : StateMap D)
  | bleach (times : ℤ)

/-- The operation comes from the network or from the passing of time, not from
the command line. -/
def StoreOp.Remote {D : Type} (host : Host) : StoreOp D → Prop
  | .merge peerAddr _ => host.isLoopbackNet peerAddr = false
  | .bleach _ => True

variable {D : Type} [BEq D]

namespace SharedState

/-- The object after an operation on the type `t`; a call that fails leaves it
as it was. -/
def apply (host : Host) (t : StdString) (s : SharedState D) : StoreOp D → SharedState D
  | .merge peerAddr stateSlice =>
      match s.merge host t stateSlice peerAddr with
      | .ok (_, s') => s'
      | .error _ => s
  | .bleach times =>
      match s.bleach t times with
      | .ok (_, s') => s'
      | .error _ => s

/-- The key `k` of the type `t` is present. -/
def Held (t : StdString) (k : StateKey) (s : SharedState D) : Prop :=
  (s.entryAt t k).isSome

variable {host : Host} {t : StdString} {s : SharedState D}

lemma apply_merge_eq (host : Host) (ht : s.Registered t) (peerAddr : SockAddr)
    (stateSlice : StateMap D) :
    ∃ tState, s.mStates[t]? = some tState ∧
      s.apply host t (.merge peerAddr stateSlice)
        = s.setState t (mergeState host.authorPlaceOlder (!host.isLoopbackNet peerAddr)
            tState stateSlice) := by
  obtain ⟨tState, hstate, hmerge⟩ := merge_eq_ok host ht stateSlice peerAddr
  refine ⟨tState, hstate, ?_⟩
  rw [apply, hmerge]

lemma apply_bleach_eq (host : Host) (ht : s.Registered t) {times : ℤ} (htimes : 1 ≤ times) :
    ∃ tState, s.mStates[t]? = some tState ∧
      s.apply host t (.bleach times) = s.setState t (bleachState times tState) := by
  obtain ⟨tState, hstate⟩ := Option.isSome_iff_exists.mp ht.1
  refine ⟨tState, hstate, ?_⟩
  rw [apply, bleach, if_neg (by omega), hstate]

lemma apply_bleach_of_lt {times : ℤ} (htimes : times < 1) :
    s.apply host t (.bleach times) = s := by
  rw [apply, bleach, if_pos htimes]

lemma apply_registered (ht : s.Registered t) (op : StoreOp D) :
    (s.apply host t op).Registered t := by
  cases op with
  | merge peerAddr stateSlice =>
      obtain ⟨tState, -, happly⟩ := apply_merge_eq host ht peerAddr stateSlice
      rw [happly]
      exact setState_registered _ ht
  | bleach times =>
      by_cases htimes : 1 ≤ times
      · obtain ⟨tState, -, happly⟩ := apply_bleach_eq host ht htimes
        rw [happly]
        exact setState_registered _ ht
      · rw [apply_bleach_of_lt (by omega)]
        exact ht

lemma run_registered (ht : s.Registered t) (ops : List (StoreOp D)) :
    (run (apply host t) s ops).Registered t := by
  induction ops using List.reverseRecOn with
  | nil => exact ht
  | append_singleton ops op ih =>
      rw [run_concat]
      exact apply_registered ih op

/-- A merge, under one key of the merged type. -/
lemma entryAt_apply_merge (ht : s.Registered t) (peerAddr : SockAddr) (stateSlice : StateMap D)
    (k : StateKey) :
    (s.apply host t (.merge peerAddr stateSlice)).entryAt t k
      = stateSlice[k]?.elim (s.entryAt t k) fun e =>
          some (resolve host.authorPlaceOlder (!host.isLoopbackNet peerAddr)
            (s.entryAt t k) e) := by
  obtain ⟨tState, hstate, happly⟩ := apply_merge_eq host ht peerAddr stateSlice
  rw [happly, entryAt, entryAt, setState_getElem?_self, hstate, Option.bind_some,
    Option.bind_some, mergeState_getElem?]

/-- A bleach, under one key of the bleached type. -/
lemma entryAt_apply_bleach (ht : s.Registered t) {times : ℤ} (htimes : 1 ≤ times)
    (k : StateKey) :
    (s.apply host t (.bleach times)).entryAt t k
      = (s.entryAt t k).bind fun e =>
          if e.mTtl ≤ times then none else some { e with mTtl := e.mTtl - times } := by
  obtain ⟨tState, hstate, happly⟩ := apply_bleach_eq host ht htimes
  rw [happly, entryAt, entryAt, setState_getElem?_self, hstate, Option.bind_some,
    Option.bind_some, bleachState_getElem?]

/-- A merge removes nothing. -/
lemma held_apply_merge (ht : s.Registered t) {k : StateKey} (hk : Held t k s)
    (peerAddr : SockAddr) (stateSlice : StateMap D) :
    Held t k (s.apply host t (.merge peerAddr stateSlice)) := by
  rw [Held, entryAt_apply_merge ht]
  cases stateSlice[k]? with
  | none => exact hk
  | some e => rfl

/-- A remote merge at an entry of this host: the stored copy stays, unless the
slice has a copy of exactly its TTL, which then takes its place. -/
lemma entryAt_apply_merge_own (ht : s.Registered t) {k : StateKey} {e : StateEntry D}
    (he : s.entryAt t k = some e) (hown : e.mAuthor = host.authorPlaceOlder)
    {peerAddr : SockAddr} (hremote : host.isLoopbackNet peerAddr = false)
    (stateSlice : StateMap D) :
    (s.apply host t (.merge peerAddr stateSlice)).entryAt t k = some e ∨
      ∃ e', stateSlice[k]? = some e' ∧ e'.mTtl = e.mTtl ∧
        (s.apply host t (.merge peerAddr stateSlice)).entryAt t k = some e' := by
  rw [entryAt_apply_merge ht, he, hremote, Bool.not_false]
  cases hk : stateSlice[k]? with
  | none => exact Or.inl rfl
  | some e' =>
      rw [Option.elim_some]
      rcases lt_trichotomy e'.mTtl e.mTtl with hlt | heq | hgt
      · exact Or.inl (by rw [resolve_of_lt hlt])
      · exact Or.inr ⟨e', rfl, heq, by rw [resolve_of_eq heq.symm]⟩
      · exact Or.inl (by rw [resolve_of_gt_own hown hgt])

end SharedState

open SharedState

/-! ### Author and data -/

/-- Along the run `ops` from `s`, remote peers cannot overwrite the entry `own`
of this host under `k`: it keeps its author and its data as long as it is
there, nothing but a bleach takes it away, and a merge from the command line
with a TTL that is not lower still replaces it. -/
structure OwnEntryProtected (host : Host) (t : StdString) (k : StateKey) (own : StateEntry D)
    (s : SharedState D) (ops : List (StoreOp D)) : Prop where
  keeps : ∀ pre, pre <+: ops → Throughout (apply host t) (Held t k) s pre →
    ∃ e, (run (apply host t) s pre).entryAt t k = some e ∧
      e.mAuthor = own.mAuthor ∧ e.mData = own.mData
  removed_by_bleach : ∀ pre op, pre ++ [op] <+: ops →
    Throughout (apply host t) (Held t k) s pre →
    ¬ Held t k (run (apply host t) s (pre ++ [op])) → ∃ times, op = .bleach times
  replaced_by_cli : ∀ pre, pre <+: ops → ∀ e,
    (run (apply host t) s pre).entryAt t k = some e →
    ∀ peerAddr stateSlice e', host.isLoopbackNet peerAddr = true → stateSlice[k]? = some e' →
      e.mTtl ≤ e'.mTtl →
      ((run (apply host t) s pre).apply host t (.merge peerAddr stateSlice)).entryAt t k = some e'

/-- No merge of the run brings, for the key `k` while it is there, a copy of
exactly the stored TTL that differs from `own` in author or data. -/
def EqualTtlAgrees (host : Host) (t : StdString) (k : StateKey) (own : StateEntry D)
    (s : SharedState D) (ops : List (StoreOp D)) : Prop :=
  ∀ pre peerAddr stateSlice, pre ++ [.merge peerAddr stateSlice] <+: ops →
    Throughout (apply host t) (Held t k) s pre →
    ∀ e e', (run (apply host t) s pre).entryAt t k = some e → stateSlice[k]? = some e' →
      e'.mTtl = e.mTtl → e'.mAuthor = own.mAuthor ∧ e'.mData = own.mData

section OwnEntry

variable {host : Host} {t : StdString} {k : StateKey} {own : StateEntry D}
  {s : SharedState D} {ops : List (StoreOp D)}

/-- A merge from the command line replaces any entry of no higher TTL. -/
lemma replaced_by_cli_merge (ht : s.Registered t) {e e' : StateEntry D}
    (he : s.entryAt t k = some e) {peerAddr : SockAddr}
    (hcli : host.isLoopbackNet peerAddr = true) {stateSlice : StateMap D}
    (hk : stateSlice[k]? = some e') (hle : e.mTtl ≤ e'.mTtl) :
    (s.apply host t (.merge peerAddr stateSlice)).entryAt t k = some e' := by
  rw [entryAt_apply_merge ht, hk, Option.elim_some, he, hcli, Bool.not_true,
    resolve_loopback hle]

/-- Only a bleach can take a key away. -/
lemma exists_bleach_of_not_held (ht : s.Registered t) (hk : Held t k s) {op : StoreOp D}
    (hgone : ¬ Held t k (s.apply host t op)) : ∃ times, op = .bleach times := by
  cases op with
  | merge peerAddr stateSlice =>
      exact absurd (held_apply_merge ht hk peerAddr stateSlice) hgone
  | bleach times => exact ⟨times, rfl⟩

/-- One step: where no copy of equal TTL disagrees, author and data stay. -/
lemma keeps_step (ht : s.Registered t) {e : StateEntry D} (he : s.entryAt t k = some e)
    (hown : e.mAuthor = host.authorPlaceOlder) {op : StoreOp D} (hremote : op.Remote host)
    (hagree : ∀ peerAddr stateSlice e', op = .merge peerAddr stateSlice →
      stateSlice[k]? = some e' → e'.mTtl = e.mTtl →
      e'.mAuthor = e.mAuthor ∧ e'.mData = e.mData)
    (hheld : Held t k (s.apply host t op)) :
    ∃ e', (s.apply host t op).entryAt t k = some e' ∧
      e'.mAuthor = e.mAuthor ∧ e'.mData = e.mData := by
  cases op with
  | merge peerAddr stateSlice =>
      rcases entryAt_apply_merge_own ht he hown hremote stateSlice with
        hkeep | ⟨e', hslice, httl, htake⟩
      · exact ⟨e, hkeep, rfl, rfl⟩
      · exact ⟨e', htake, hagree peerAddr stateSlice e' rfl hslice httl⟩
  | bleach times =>
      by_cases htimes : 1 ≤ times
      · rw [Held] at hheld
        rw [entryAt_apply_bleach ht htimes, he, Option.bind_some] at hheld ⊢
        split_ifs at hheld ⊢ with hle
        · exact absurd hheld (by simp)
        · exact ⟨_, rfl, rfl, rfl⟩
      · rw [apply_bleach_of_lt (by omega)]
        exact ⟨e, he, rfl, rfl⟩

/-- **Own entries against remote peers.** Along a run of remote merges and
bleaches an entry of this host is protected exactly when no merge brings a
different copy of its very TTL: the case the unused `minUpdateTtl` was written
for. -/
theorem ownEntryProtected_iff (ht : s.Registered t) (hk : s.entryAt t k = some own)
    (hown : own.mAuthor = host.authorPlaceOlder) (hremote : ∀ op ∈ ops, op.Remote host) :
    OwnEntryProtected host t k own s ops ↔ EqualTtlAgrees host t k own s ops := by
  have hreg : ∀ pre : List (StoreOp D), (run (apply host t) s pre).Registered t :=
    fun pre => run_registered ht pre
  constructor
  · intro hprot pre peerAddr stateSlice hpre hheld e e' he hslice httl
    -- the merge keeps the key, so the entry it leaves is still protected
    have hpre₀ : pre <+: ops := (List.prefix_append _ _).trans hpre
    obtain ⟨e₀, he₀, hauthor₀, -⟩ := hprot.keeps pre hpre₀ hheld
    obtain rfl : e₀ = e := Option.some.inj (he₀.symm.trans he)
    have hnext : Held t k (run (apply host t) s (pre ++ [.merge peerAddr stateSlice])) := by
      rw [run_concat]
      exact held_apply_merge (hreg pre) hheld.last _ _
    obtain ⟨e₁, he₁, hauthor₁, hdata₁⟩ :=
      hprot.keeps _ hpre (throughout_concat.mpr ⟨hheld, hnext⟩)
    rw [run_concat, entryAt_apply_merge (hreg pre), hslice, Option.elim_some, he,
      resolve_of_eq httl.symm] at he₁
    obtain rfl : e' = e₁ := Option.some.inj he₁
    exact ⟨hauthor₁, hdata₁⟩
  · intro hagree
    refine ⟨?_, ?_, ?_⟩
    · -- author and data, by induction along the run
      refine run_induction (fun _ => ⟨own, hk, rfl, rfl⟩) fun pre op hpre ih hheld => ?_
      obtain ⟨hheld₀, hlast⟩ := throughout_concat.mp hheld
      obtain ⟨e, he, hauthor, hdata⟩ := ih hheld₀
      rw [run_concat] at hlast ⊢
      have hop : op.Remote host :=
        hremote op (hpre.subset (List.mem_append_right _ List.mem_cons_self))
      obtain ⟨e', he', hauthor', hdata'⟩ :=
        keeps_step (hreg pre) he (hauthor.trans hown) hop
          (fun peerAddr stateSlice e' hopeq hslice httl => by
            subst hopeq
            obtain ⟨h1, h2⟩ := hagree pre peerAddr stateSlice hpre hheld₀ e e' he hslice httl
            exact ⟨h1.trans hauthor.symm, h2.trans hdata.symm⟩)
          hlast
      exact ⟨e', he', hauthor'.trans hauthor, hdata'.trans hdata⟩
    · intro pre op _ hheld hgone
      rw [run_concat] at hgone
      exact exists_bleach_of_not_held (hreg pre) hheld.last hgone
    · intro pre _ e he peerAddr stateSlice e' hcli hslice hle
      exact replaced_by_cli_merge (hreg pre) he hcli hslice hle

end OwnEntry

/-! ### A node that hears an echo of its own entry -/

/-- The node `a`, with the addresses of `127.0.0.0/8` for its loopback. -/
def nodeA : Host where
  authorPlaceOlder := [97]
  isLoopbackNet := fun addr => addr.head? == some 127

/-- The type `t` with the one entry `e` under the key `k`. -/
def singleEntry (e : StateEntry ℕ) : SharedState ℕ where
  mStates := Std.ExtTreeMap.empty.insert [116] (Std.ExtTreeMap.empty.insert [107] e)
  mTypeConf := Std.ExtTreeMap.empty.insert [116] ⟨[116], [], 30, 300⟩

/-- A merge from `10.0.0.2` of a slice with the one entry `e` under `k`. -/
def mergeFromPeer (e : StateEntry ℕ) : StoreOp ℕ :=
  .merge [10, 0, 0, 2] (Std.ExtTreeMap.empty.insert [107] e)

/-- A single echo with the stored TTL and other data overwrites the entry. -/
theorem not_ownEntryProtected_echo :
    ¬ OwnEntryProtected nodeA [116] [107] ⟨[97], 10, 2⟩ (singleEntry ⟨[97], 10, 2⟩)
      [mergeFromPeer ⟨[97], 10, 1⟩] := by
  intro hprot
  have hheld : Throughout (apply nodeA [116]) (Held [116] [107]) (singleEntry ⟨[97], 10, 2⟩)
      ([] ++ [mergeFromPeer ⟨[97], 10, 1⟩]) := by
    rw [throughout_concat, throughout_nil]
    exact ⟨by unfold Held; decide +kernel, by unfold Held; decide +kernel⟩
  obtain ⟨e, he, -, hdata⟩ := hprot.keeps _ List.prefix_rfl hheld
  have hstored : (run (apply nodeA [116]) (singleEntry ⟨[97], 10, 2⟩)
      [mergeFromPeer ⟨[97], 10, 1⟩]).entryAt [116] [107] = some ⟨[97], 10, 1⟩ := by
    decide +kernel
  obtain rfl : e = ⟨[97], 10, 1⟩ := Option.some.inj (he.symm.trans hstored)
  exact absurd hdata (by decide)

/-- A lower TTL and a bleach, by contrast, leave the entry its data. -/
theorem ownEntryProtected_lower_ttl :
    OwnEntryProtected nodeA [116] [107] ⟨[97], 10, 2⟩ (singleEntry ⟨[97], 10, 2⟩)
      [mergeFromPeer ⟨[98], 9, 1⟩] := by
  have hagree : EqualTtlAgrees nodeA [116] [107] ⟨[97], 10, 2⟩ (singleEntry ⟨[97], 10, 2⟩)
      [mergeFromPeer ⟨[98], 9, 1⟩] := by
    intro pre peerAddr stateSlice hpre _ e e' he hslice httl
    obtain ⟨rfl, hop⟩ : pre = [] ∧ StoreOp.merge peerAddr stateSlice
        = mergeFromPeer ⟨[98], 9, 1⟩ := by
      cases pre with
      | nil => exact ⟨rfl, by simpa using hpre⟩
      | cons op pre => exact absurd hpre.length_le (by simp)
    obtain ⟨-, rfl⟩ := StoreOp.merge.inj hop
    have he0 : (singleEntry ⟨[97], 10, 2⟩).entryAt [116] [107] = some ⟨[97], 10, 2⟩ := by
      decide +kernel
    obtain rfl : e = ⟨[97], 10, 2⟩ := Option.some.inj (he.symm.trans he0)
    obtain rfl : e' = ⟨[98], 9, 1⟩ := by simpa using hslice.symm
    exact absurd httl (by decide)
  exact (ownEntryProtected_iff ⟨by decide +kernel, by decide +kernel⟩ (by decide +kernel) rfl
    (by simp [mergeFromPeer, StoreOp.Remote, nodeA])).mpr hagree

/-! ### Time to live -/

/-- The seconds an operation takes off every TTL; `bleach` refuses to be called
for less than one. -/
def StoreOp.seconds : StoreOp D → ℤ
  | .merge _ _ => 0
  | .bleach times => if times < 1 then 0 else times

/-- The seconds the bleaches of a run add up to. -/
def bleachedSeconds (ops : List (StoreOp D)) : ℤ := (ops.map StoreOp.seconds).sum

/-- Along the run `ops` from `s`, remote peers cannot extend the life of the
entry `own` of this host under `k`: as long as it is there its TTL is at most
what the bleaches have left of it, and it is gone once they have used it up. -/
structure OwnLifeNotExtended (host : Host) (t : StdString) (k : StateKey) (own : StateEntry D)
    (s : SharedState D) (ops : List (StoreOp D)) : Prop where
  mTtl_le : ∀ pre, pre <+: ops → Throughout (apply host t) (Held t k) s pre →
    ∃ e, (run (apply host t) s pre).entryAt t k = some e ∧
      e.mTtl ≤ own.mTtl - bleachedSeconds pre
  removed : ∀ pre, pre <+: ops → own.mTtl ≤ bleachedSeconds pre →
    ¬ Throughout (apply host t) (Held t k) s pre

/-- No merge of the run brings, for the key `k` while it is there, a copy of
exactly the stored TTL by another author. -/
def EqualTtlSameAuthor (host : Host) (t : StdString) (k : StateKey) (s : SharedState D)
    (ops : List (StoreOp D)) : Prop :=
  ∀ pre peerAddr stateSlice, pre ++ [.merge peerAddr stateSlice] <+: ops →
    Throughout (apply host t) (Held t k) s pre →
    ∀ e e', (run (apply host t) s pre).entryAt t k = some e → stateSlice[k]? = some e' →
      e'.mTtl = e.mTtl → e'.mAuthor = host.authorPlaceOlder

section OwnLife

variable {host : Host} {t : StdString} {k : StateKey} {own : StateEntry D}
  {s : SharedState D} {ops : List (StoreOp D)}

omit [BEq D] in
lemma bleachedSeconds_concat (pre : List (StoreOp D)) (op : StoreOp D) :
    bleachedSeconds (pre ++ [op]) = bleachedSeconds pre + op.seconds := by
  simp [bleachedSeconds]

/-- One step: the TTL of an entry of this host runs down with the bleaches, and
stays positive after one. -/
lemma mTtl_step (ht : s.Registered t) {e : StateEntry D} (he : s.entryAt t k = some e)
    (hown : e.mAuthor = host.authorPlaceOlder) {op : StoreOp D} (hremote : op.Remote host)
    (hauthor : ∀ peerAddr stateSlice e', op = .merge peerAddr stateSlice →
      stateSlice[k]? = some e' → e'.mTtl = e.mTtl → e'.mAuthor = host.authorPlaceOlder)
    (hheld : Held t k (s.apply host t op)) :
    ∃ e', (s.apply host t op).entryAt t k = some e' ∧
      e'.mAuthor = host.authorPlaceOlder ∧ e'.mTtl = e.mTtl - op.seconds ∧
      (op.seconds = 0 ∨ 1 ≤ op.seconds ∧ 1 ≤ e'.mTtl) := by
  cases op with
  | merge peerAddr stateSlice =>
      rcases entryAt_apply_merge_own ht he hown hremote stateSlice with
        hkeep | ⟨e', hslice, httl, htake⟩
      · exact ⟨e, hkeep, hown, by simp [StoreOp.seconds], Or.inl rfl⟩
      · exact ⟨e', htake, hauthor peerAddr stateSlice e' rfl hslice httl,
          by simp [StoreOp.seconds, httl], Or.inl rfl⟩
  | bleach times =>
      by_cases htimes : 1 ≤ times
      · have hseconds : (StoreOp.bleach times : StoreOp D).seconds = times := by
          rw [StoreOp.seconds, if_neg (by omega)]
        rw [Held] at hheld
        rw [entryAt_apply_bleach ht htimes, he, Option.bind_some] at hheld ⊢
        split_ifs at hheld ⊢ with hle
        · exact absurd hheld (by simp)
        · refine ⟨_, rfl, hown, by rw [hseconds], Or.inr ?_⟩
          rw [hseconds]
          exact ⟨htimes, by simp only; omega⟩
      · have hseconds : (StoreOp.bleach times : StoreOp D).seconds = 0 := by
          rw [StoreOp.seconds, if_pos (by omega)]
        rw [apply_bleach_of_lt (by omega), hseconds]
        exact ⟨e, he, hown, by omega, Or.inl rfl⟩

/-- The invariant of a run in which no copy of equal TTL changes the author: the
entry is this host's, its TTL is what the bleaches have left, and it is
positive once there has been a bleach. -/
lemma own_mTtl_eq (ht : s.Registered t) (hk : s.entryAt t k = some own)
    (hown : own.mAuthor = host.authorPlaceOlder) (hremote : ∀ op ∈ ops, op.Remote host)
    (hauthor : EqualTtlSameAuthor host t k s ops) :
    ∀ pre, pre <+: ops → Throughout (apply host t) (Held t k) s pre →
      ∃ e, (run (apply host t) s pre).entryAt t k = some e ∧
        e.mAuthor = host.authorPlaceOlder ∧ e.mTtl = own.mTtl - bleachedSeconds pre ∧
        (bleachedSeconds pre = 0 ∨ 1 ≤ bleachedSeconds pre ∧ 1 ≤ e.mTtl) := by
  refine run_induction (fun _ => ⟨own, hk, hown, by simp [bleachedSeconds], Or.inl rfl⟩)
    fun pre op hpre ih hheld => ?_
  obtain ⟨hheld₀, hlast⟩ := throughout_concat.mp hheld
  obtain ⟨e, he, hauthor₀, httl, hpos⟩ := ih hheld₀
  rw [run_concat] at hlast ⊢
  have hop : op.Remote host :=
    hremote op (hpre.subset (List.mem_append_right _ List.mem_cons_self))
  obtain ⟨e', he', hauthor', httl', hpos'⟩ :=
    mTtl_step (run_registered ht pre) he hauthor₀ hop
      (fun peerAddr stateSlice e' hopeq hslice heq => by
        subst hopeq
        exact hauthor pre peerAddr stateSlice hpre hheld₀ e e' he hslice heq)
      hlast
  refine ⟨e', he', hauthor', ?_, ?_⟩
  · rw [bleachedSeconds_concat]
    omega
  · rw [bleachedSeconds_concat]
    omega

/-- **The life of an own entry.** As long as no remote merge brings a copy of
exactly the stored TTL under another author, remote peers cannot extend the
life of an entry of this host. The TTL is positive to begin with: an entry stored
without one is there although nothing is left of it, until the next bleach. -/
theorem ownLifeNotExtended_of_sameAuthor (ht : s.Registered t) (hk : s.entryAt t k = some own)
    (hown : own.mAuthor = host.authorPlaceOlder) (hpos : 0 < own.mTtl)
    (hremote : ∀ op ∈ ops, op.Remote host)
    (hauthor : EqualTtlSameAuthor host t k s ops) :
    OwnLifeNotExtended host t k own s ops := by
  have hinv := own_mTtl_eq ht hk hown hremote hauthor
  refine ⟨?_, ?_⟩
  · intro pre hpre hheld
    obtain ⟨e, he, -, httl, -⟩ := hinv pre hpre hheld
    exact ⟨e, he, httl.le⟩
  · intro pre hpre hle hheld
    -- the bleaches have used up the TTL, yet a bleach leaves it positive
    obtain ⟨e, -, -, httl, h0 | ⟨-, h1⟩⟩ := hinv pre hpre hheld
    · omega
    · omega

end OwnLife

/-- Two merges get around the guard: the first, of equal TTL, takes the
authorship away, so that the second may raise the TTL. -/
theorem not_ownLifeNotExtended_two_merges :
    ¬ OwnLifeNotExtended nodeA [116] [107] ⟨[97], 10, 2⟩ (singleEntry ⟨[97], 10, 2⟩)
      [mergeFromPeer ⟨[98], 10, 2⟩, mergeFromPeer ⟨[98], 1000, 2⟩] := by
  intro hlife
  have hheld : Throughout (apply nodeA [116]) (Held [116] [107]) (singleEntry ⟨[97], 10, 2⟩)
      (([] ++ [mergeFromPeer ⟨[98], 10, 2⟩]) ++ [mergeFromPeer ⟨[98], 1000, 2⟩]) := by
    rw [throughout_concat, throughout_concat, throughout_nil]
    exact ⟨⟨by unfold Held; decide +kernel, by unfold Held; decide +kernel⟩,
      by unfold Held; decide +kernel⟩
  obtain ⟨e, he, hle⟩ := hlife.mTtl_le _ List.prefix_rfl hheld
  have hstored : (run (apply nodeA [116]) (singleEntry ⟨[97], 10, 2⟩)
      [mergeFromPeer ⟨[98], 10, 2⟩, mergeFromPeer ⟨[98], 1000, 2⟩]).entryAt [116] [107]
        = some ⟨[98], 1000, 2⟩ := by
    decide +kernel
  obtain rfl : e = ⟨[98], 1000, 2⟩ := Option.some.inj (he.symm.trans hstored)
  exact absurd hle (by decide)

/-- An echo of equal TTL under the own name does not keep a bleach from using up
the entry. -/
theorem ownLifeNotExtended_bleach :
    OwnLifeNotExtended nodeA [116] [107] ⟨[97], 10, 2⟩ (singleEntry ⟨[97], 10, 2⟩)
      [mergeFromPeer ⟨[97], 10, 1⟩, .bleach 4] := by
  refine ownLifeNotExtended_of_sameAuthor ⟨by decide +kernel, by decide +kernel⟩
    (by decide +kernel) rfl (by decide) (by simp [StoreOp.Remote, mergeFromPeer, nodeA]) ?_
  intro pre peerAddr stateSlice hpre _ e e' _ hslice _
  have hmem : StoreOp.merge peerAddr stateSlice
      ∈ [mergeFromPeer ⟨[97], 10, 1⟩, StoreOp.bleach 4] :=
    hpre.subset (List.mem_append_right _ List.mem_cons_self)
  have hop : StoreOp.merge peerAddr stateSlice = mergeFromPeer ⟨[97], 10, 1⟩ := by
    simpa using hmem
  obtain ⟨-, rfl⟩ := StoreOp.merge.inj hop
  obtain rfl : e' = ⟨[97], 10, 1⟩ := by simpa using hslice.symm
  rfl

end SharedStateAsync
