/-
Where the entries of a network come from.

Nodes copy entries verbatim, merge keeps one of two copies, and a bleach lowers
the TTL of the entries it does not remove. So whatever is stored or in flight was
made by the command line of some host, and its TTL is positive and not above the
one it was made with. The configuration may change and differ between the hosts.

* `Network.stepWith`: steps in which every insert brings its configuration;
* `MadeBy`: an insert made an entry that has aged to the given one;
* `provenance_run`: the invariant of every run from empty states.
-/
import SharedStateAsync.Gossip.Network

namespace SharedStateAsync

open Machine

variable {ι D : Type} [DecidableEq ι] [BEq D]

/-- A step of the network under the configuration its node has then. -/
def Network.stepWith (hostname : ι → StdString) (net : Network ι D)
    (ev : DataTypeConf × Event ι D) : Network ι D :=
  net.step ev.1 hostname ev.2

/-- Among `evs` is an insert, on the host that is the author of `e`, of the data
of `e` under the key `k`, with a TTL from which the positive one of `e` can have
come by ageing. -/
def MadeBy (hostname : ι → StdString) (evs : List (DataTypeConf × Event ι D)) (k : StateKey)
    (e : StateEntry D) : Prop :=
  ∃ conf n members, (conf, Event.insert n members) ∈ evs ∧ hostname n = e.mAuthor ∧
    insertedValue members k = some e.mData ∧ 1 ≤ e.mTtl ∧ e.mTtl ≤ conf.insertTtl

section MadeBy

variable {hostname : ι → StdString} {evs : List (DataTypeConf × Event ι D)} {k : StateKey}
  {e : StateEntry D}

omit [DecidableEq ι] [BEq D] in
lemma MadeBy.mono (h : MadeBy hostname evs k e) (ev : DataTypeConf × Event ι D) :
    MadeBy hostname (evs ++ [ev]) k e := by
  obtain ⟨conf, n, members, hmem, hmade⟩ := h
  exact ⟨conf, n, members, List.mem_append_left _ hmem, hmade⟩

omit [DecidableEq ι] [BEq D] in
/-- An entry that survives a bleach was made by the same insert. -/
lemma MadeBy.bleach (h : MadeBy hostname evs k e) {times : ℤ} (htimes : 1 ≤ times)
    (hlt : times < e.mTtl) : MadeBy hostname evs k { e with mTtl := e.mTtl - times } := by
  obtain ⟨conf, n, members, hmem, hauthor, hdata, -, hle⟩ := h
  refine ⟨conf, n, members, hmem, hauthor, hdata, ?_, ?_⟩
  · simp only
    omega
  · simp only
    omega

omit [DecidableEq ι] [BEq D] in
/-- An insert makes its own entries. -/
lemma madeBy_insertSlice {conf : DataTypeConf} {n : ι} {members : List (StdString × D)}
    (hmem : (conf, Event.insert n members) ∈ evs) (hpos : 1 ≤ conf.insertTtl)
    (he : (insertSlice conf (hostname n) members)[k]? = some e) :
    MadeBy hostname evs k e := by
  rw [insertSlice_getElem?] at he
  obtain ⟨d, hd, rfl⟩ := Option.map_eq_some_iff.mp he
  exact ⟨conf, n, members, hmem, rfl, hd, hpos, le_rfl⟩

end MadeBy

/-- What holds of the entries of every insert, and still of an entry that was bleached,
holds of all entries of a run if it held of them before. -/
theorem Network.AllEntries.run {Q : StateKey → StateEntry D → Prop} {hostname : ι → StdString}
    {net : Network ι D} (h : net.AllEntries Q) (evs : List (DataTypeConf × Event ι D))
    (hbleach : ∀ k e times, 1 ≤ times → times < e.mTtl → Q k e →
      Q k { e with mTtl := e.mTtl - times })
    (hinsert : ∀ conf n members, (conf, Event.insert n members) ∈ evs → ∀ k e,
      (insertSlice conf (hostname n) members)[k]? = some e → Q k e) :
    (Machine.run (Network.stepWith hostname) net evs).AllEntries Q := by
  induction evs using List.reverseRecOn with
  | nil => exact h
  | append_singleton evs ev ih =>
      have hbefore := ih fun conf n members hmem =>
        hinsert conf n members (List.mem_append_left _ hmem)
      rw [run_concat]
      refine hbefore.step ev.2 (fun _ _ he => he) hbleach ?_
      intro n members hev k e he
      have hmem : (ev.1, Event.insert n members) ∈ evs ++ [ev] :=
        List.mem_append_right _ (List.mem_singleton.mpr (Prod.ext rfl hev.symm))
      exact hinsert ev.1 n members hmem k e he

/-- **Provenance.** In every run from empty states of inserts of positive TTL,
sessions whose legs are delayed, reordered, repeated or lost, and bleaches, every
entry that is stored or in flight was made by an earlier insert of its data under
its key on the host that is its author, and its TTL is positive and at most the
one it was made with. -/
theorem provenance_run (hostname : ι → StdString) (evs : List (DataTypeConf × Event ι D))
    (hpos : ∀ conf n members, (conf, Event.insert n members) ∈ evs → 1 ≤ conf.insertTtl) :
    (run (Network.stepWith hostname) (Network.empty ι D) evs).AllEntries
      (MadeBy hostname evs) := by
  induction evs using List.reverseRecOn with
  | nil => exact Network.allEntries_empty _
  | append_singleton evs ev ih =>
      obtain ⟨conf, ev⟩ := ev
      have hbefore := ih fun conf n members hmem =>
        hpos conf n members (List.mem_append_left _ hmem)
      rw [run_concat]
      refine hbefore.step ev (fun k e he => he.mono _) ?_ ?_
      · exact fun k e times htimes hlt he => (he.bleach htimes hlt).mono _
      · rintro n members rfl k e he
        have hmem : (conf, Event.insert n members) ∈ evs ++ [(conf, .insert n members)] :=
          List.mem_append_right _ List.mem_cons_self
        exact madeBy_insertSlice hmem (hpos conf n members hmem) he

/-- The names of two hosts. -/
def twoHosts (n : Bool) : StdString := if n then [97] else [98]

/-- An insert on one host, the two legs that bring it to the other, and a bleach
there. -/
def insertThenBleach : List (DataTypeConf × Event Bool ℕ) :=
  [.insert true [([107], 7)], .deliver true 0, .send true, .deliver false 1, .bleach false 5].map
    (Prod.mk ⟨[116], [], 30, 300⟩)

/-- The copy on the other host has aged by the bleach. -/
theorem provenance_insertThenBleach :
    ((run (Network.stepWith twoHosts) (Network.empty Bool ℕ)
        insertThenBleach).store false)[([107] : StateKey)]? = some ⟨[97], 326, 7⟩ ∧
      MadeBy twoHosts insertThenBleach [107] ⟨[97], 326, 7⟩ := by
  have hstored : ((run (Network.stepWith twoHosts) (Network.empty Bool ℕ)
      insertThenBleach).store false)[([107] : StateKey)]? = some ⟨[97], 326, 7⟩ := by
    decide +kernel
  refine ⟨hstored, (provenance_run _ _ ?_).store false _ _ hstored⟩
  intro conf n members hmem
  have hconf : conf = ⟨[116], [], 30, 300⟩ := by
    obtain ⟨ev, -, heq⟩ := List.mem_map.mp hmem
    exact (congrArg Prod.fst heq).symm
  rw [hconf]
  decide

end SharedStateAsync
