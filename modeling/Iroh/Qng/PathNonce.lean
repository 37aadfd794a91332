import Iroh.Common.LittleEndian
import Iroh.Qng.SentPacketHandler
import Mathlib.Data.List.GetD

/-!
# Nonces of paths

Reference: `internal/qng/internal/handshake/aead.go` (`putPathNonce`), `cipher_suite.go`
(`xorNonceAEAD`); the numbers are from `PopPacketNumberForPath` of
`internal/qng/internal/ackhandler/sent_packet_handler.go`.

All paths of a connection seal with one key and one IV.  Path 0 writes its packet number alone, 8 bytes;
the other paths write their number before it, 12 bytes.  Aligned to the right, path 0 writes its number
too: it is zero.
-/

namespace Iroh.Qng.Handshake

open AckHandler List

/-- `binary.BigEndian`, with `k` bytes. -/
def bigEndian (k n : ℕ) : Bytes := (leBytes k n).reverse

/-- `putPathNonce`: the bytes that it writes and returns. -/
def putPathNonce (pid : UInt32) (pn : ℕ) : Bytes :=
  if pid = 0 then bigEndian 8 pn
  else bigEndian 4 pid.toNat ++ bigEndian 8 (pn % 2 ^ 62)

/-- `nonceMask` of an `xorNonceAEAD`. -/
abbrev NonceMask := Fin 12 → UInt8

/-- The loops of `Seal`. -/
def xorNonce (mask : NonceMask) (nonce : Bytes) : NonceMask := fun i =>
  if 12 - nonce.length ≤ i then mask i ^^^ nonce.getD (i - (12 - nonce.length)) 0 else mask i

/-- `Seal` of an `xorNonceAEAD`: the nonce that the AEAD is given, and the mask afterwards. -/
def sealNonce (mask : NonceMask) (nonce : Bytes) : NonceMask × NonceMask :=
  let used := xorNonce mask nonce
  (used, xorNonce used nonce)

/-! ## One call -/

def aligned (nonce : Bytes) : Bytes := List.replicate (12 - nonce.length) 0 ++ nonce

lemma xorNonce_apply (mask : NonceMask) (nonce : Bytes) (i : Fin 12) :
    xorNonce mask nonce i = mask i ^^^ (aligned nonce).getD i 0 := by
  unfold xorNonce aligned
  split
  next hi => rw [getD_append_right _ _ _ _ (by simpa using hi), length_replicate]
  next hi =>
    rw [getD_append _ _ _ _ (by rw [length_replicate]; omega)]
    rw [getD_replicate 0 (by omega), UInt8.xor_zero]

lemma sealNonce_mask (mask : NonceMask) (nonce : Bytes) : (sealNonce mask nonce).2 = mask := by
  funext i
  simp only [sealNonce, xorNonce_apply]
  rw [UInt8.xor_assoc, UInt8.xor_self, UInt8.xor_zero]

lemma aligned_putPathNonce (pid : UInt32) (hpn : pn < 2 ^ 62) :
    aligned (putPathNonce pid pn) = bigEndian 4 pid.toNat ++ bigEndian 8 pn := by
  unfold putPathNonce
  split
  next hpid =>
    subst hpid
    simp [aligned, bigEndian]
    rfl
  · rw [Nat.mod_eq_of_lt hpn]
    simp [aligned, bigEndian]

lemma bigEndian_injective (hm : m < 256 ^ k) (hn : n < 256 ^ k)
    (h : bigEndian k m = bigEndian k n) : m = n := by
  have hle := congrArg leNat (reverse_injective h)
  rwa [leNat_leBytes, leNat_leBytes, Nat.mod_eq_of_lt hm, Nat.mod_eq_of_lt hn] at hle

/-- **Path and packet number determine the nonce, and are determined by it.** -/
theorem sealNonce_injective (hn : n < 2 ^ 62)
    (hn' : n' < 2 ^ 62) (h : (sealNonce mask (putPathNonce p n)).1 =
      (sealNonce mask (putPathNonce p' n')).1) : p = p' ∧ n = n' := by
  have haligned : aligned (putPathNonce p n) = aligned (putPathNonce p' n') := by
    have hlength : ∀ p {n}, n < 2 ^ 62 → (aligned (putPathNonce p n)).length = 12 := by
      intro p n hn
      simp [aligned_putPathNonce p hn, bigEndian]
    refine ext_getElem ((hlength p hn).trans (hlength p' hn').symm) fun i hi hi' => ?_
    have hbyte := congrFun h ⟨i, hlength p hn ▸ hi⟩
    simp only [sealNonce, xorNonce_apply, UInt8.xor_right_inj, getD_eq_getElem _ _ hi,
      getD_eq_getElem _ _ hi'] at hbyte
    exact hbyte
  rw [aligned_putPathNonce p hn, aligned_putPathNonce p' hn'] at haligned
  obtain ⟨hpid, hpn⟩ := append_inj haligned (by simp [bigEndian])
  refine ⟨UInt32.toNat_inj.mp (bigEndian_injective p.toNat_lt p'.toNat_lt hpid), ?_⟩
  exact bigEndian_injective (hn.trans (by decide)) (hn'.trans (by decide)) hpn

/-! ## All calls under one key -/

/-- The generators of the paths, the mask, and what was sealed: the path, the number and the nonce. -/
structure Sealer where
  generators : UInt32 → PacketNumberGenerator
  nonceMask : NonceMask
  sealed : List (UInt32 × ℕ × NonceMask)

def Sealer.send (s : Sealer) (send : UInt32 × ℕ) : Sealer :=
  let popped := (s.generators send.1).pop send.2
  let used := sealNonce s.nonceMask (putPathNonce send.1 popped.2.1)
  { generators := Function.update s.generators send.1 popped.2.2
    nonceMask := used.2
    sealed := s.sealed ++ [(send.1, popped.2.1, used.1)] }

/-- The nonces used are those of the packet numbers given out. -/
structure Sealer.Ok (iv : NonceMask) (s : Sealer) : Prop where
  mask : s.nonceMask = iv
  nonces : ∀ x ∈ s.sealed, x.2.2 = (sealNonce iv (putPathNonce x.1 x.2.1)).1
  popped : ∀ x ∈ s.sealed, x.2.1 < (s.generators x.1).next
  once : (s.sealed.map fun x => (x.1, x.2.1)).Nodup

lemma next_pop (g : PacketNumberGenerator) (r : ℕ) :
    g.next ≤ (g.pop r).2.1 ∧ (g.pop r).2.2.next = (g.pop r).2.1 + 1 := by
  unfold PacketNumberGenerator.pop
  split
  · exact ⟨Nat.le_succ _, rfl⟩
  · exact ⟨le_rfl, rfl⟩

lemma Sealer.Ok.send {s : Sealer} (h : s.Ok iv) (send : UInt32 × ℕ) : (s.send send).Ok iv := by
  obtain ⟨hle, hnext⟩ := next_pop (s.generators send.1) send.2
  refine ⟨(sealNonce_mask _ _).trans h.mask, ?_, ?_, ?_⟩
  · refine forall_mem_append.mpr ⟨h.nonces, forall_mem_singleton.mpr ?_⟩
    rw [← h.mask]
  · refine forall_mem_append.mpr ⟨fun x hx => ?_, forall_mem_singleton.mpr ?_⟩
    · have hlt := h.popped x hx
      by_cases hpid : x.1 = send.1
      · rw [hpid] at hlt
        simp only [Sealer.send, hpid, Function.update_self]
        omega
      · simpa only [Sealer.send, Function.update_of_ne hpid] using hlt
    · simp only [Sealer.send, Function.update_self]
      omega
  · refine map_append ▸ nodup_append'.mpr ⟨h.once, nodup_singleton _, ?_⟩
    rw [map_singleton, disjoint_singleton]
    -- the number is above all that the path has used
    intro hmem
    obtain ⟨x, hx, heq⟩ := mem_map.mp hmem
    simp only [Prod.mk.injEq] at heq
    have hlt := h.popped x hx
    rw [heq.1, heq.2] at hlt
    omega

/-- **No nonce is used twice.**  For every IV the nonce is injective in the path and the packet number,
a `Seal` leaves the IV as it was, and over any sends on any paths the nonces are distinct. -/
theorem nonces_distinct (iv : NonceMask) (generators : UInt32 → PacketNumberGenerator)
    (sends : List (UInt32 × ℕ)) :
    (∀ p p' n n', n < 2 ^ 62 → n' < 2 ^ 62 → (sealNonce iv (putPathNonce p n)).1 =
      (sealNonce iv (putPathNonce p' n')).1 → p = p' ∧ n = n') ∧
    (∀ p n, (sealNonce iv (putPathNonce p n)).2 = iv) ∧
    ((∀ x ∈ (sends.foldl Sealer.send ⟨generators, iv, []⟩).sealed, x.2.1 < 2 ^ 62) →
      ((sends.foldl Sealer.send ⟨generators, iv, []⟩).sealed.map (·.2.2)).Nodup) := by
  refine ⟨fun p p' n n' hn hn' => sealNonce_injective hn hn', fun p n => sealNonce_mask _ _, ?_⟩
  intro hsmall
  have hok : (sends.foldl Sealer.send ⟨generators, iv, []⟩).Ok iv := by
    refine foldlRecOn (motive := Sealer.Ok iv) sends _ ?_ fun s h send _ => h.send send
    exact ⟨rfl, fun _ => nofun, fun _ => nofun, nodup_nil⟩
  refine List.Nodup.map_on (fun x hx y hy heq => ?_) hok.once.of_map
  rw [hok.nonces x hx, hok.nonces y hy] at heq
  obtain ⟨hpid, hpn⟩ := sealNonce_injective (hsmall x hx) (hsmall y hy) heq
  exact inj_on_of_nodup_map hok.once hx hy (Prod.ext hpid hpn)

end Iroh.Qng.Handshake
