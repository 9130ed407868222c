import SimpleCode.Crypto.DEScCipher

set_option autoImplicit false

namespace SimpleCode.Crypto.DESc

open Foundations BitArray

inductive Call
  | play (MesOut MesIn : Buffer)
  | kick (MesOut MesIn : Buffer)

def Call.step (s : Statics) : Call → Statics
  | .play MesOut MesIn => (playDes s MesOut MesIn).1
  | .kick MesOut MesIn => (kickDes s MesOut MesIn).1

def run (s : Statics) (calls : List Call) : Statics := calls.foldl Call.step s

lemma step_SubKey (s : Statics) (c : Call) : (c.step s).SubKey = s.SubKey := by
  cases c with
  | play MesOut MesIn => exact (playDes_spec s MesOut MesIn).1
  | kick MesOut MesIn => exact (kickDes_spec s MesOut MesIn).1

lemma run_SubKey (s : Statics) (calls : List Call) : (run s calls).SubKey = s.SubKey := by
  induction calls generalizing s with
  | nil => rfl
  | cons c calls ih => exact (ih (c.step s)).trans (step_SubKey s c)

lemma kickDes_playDes_of_SubKey {s t : Statics} (h : t.SubKey = s.SubKey)
    (MesOut MesIn MesBack : Buffer) {k : ℕ} (hk : k < 8) :
    (kickDes t MesBack (playDes s MesOut MesIn).2).2 k = MesIn k := by
  rw [(kickDes_spec _ _ _).2, (playDes_spec _ _ _).2, h, hexToBit_bitToHex (by decide),
    tables.decrypt_encrypt, store, if_pos (by omega), Nat.sub_zero, byte_ofBytes _ (by omega)]

theorem kickDes_playDes (s : Statics) (KeyIn : Buffer) (before between : List Call)
    (MesOut MesIn MesBack : Buffer) :
    let s₁ := run (setKey s KeyIn) before
    ∀ k < 8, (kickDes (run (playDes s₁ MesOut MesIn).1 between) MesBack
      (playDes s₁ MesOut MesIn).2).2 k = MesIn k := by
  intro s₁ k hk
  apply kickDes_playDes_of_SubKey _ _ _ _ hk
  rw [run_SubKey, (playDes_spec _ _ _).1]

end SimpleCode.Crypto.DESc
