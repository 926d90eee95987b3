import FesTerm.Document.Identity
import FesTerm.Lib.PrefixCode

/-!
# Document identity proofs

The tuple in a remote key is read back field by field: an escaped text begins with no bare quote, a
number ends at the first character that is no digit. What is not read back is the owner, whose two
halves are joined before they are quoted, and a local path, whose malformed sequences are all shown
as one character. `key_names_one_document` says that these are the only ways two documents come to
share a key.
-/

namespace FesTerm.Document

open PrefixCode List

theorem digitChar_injective {m n : Nat} (hm : m < 16) (hn : n < 16)
    (h : m.digitChar = n.digitChar) : m = n := by
  have table : ∀ a < 16, ∀ b < 16, Nat.digitChar a = Nat.digitChar b → a = b := by decide
  exact table m hm n hn h

theorem toDigits_injective {base : Nat} (hlow : 1 < base) (hhigh : base ≤ 16) :
    ∀ {m n : Nat}, Nat.toDigits base m = Nat.toDigits base n → m = n := by
  intro m
  induction m using Nat.strong_induction_on with
  | _ m ih =>
    intro n h
    rw [Nat.toDigits_eq_if hlow (n := m), Nat.toDigits_eq_if hlow (n := n)] at h
    have hm := Nat.mod_lt m (Nat.lt_trans Nat.zero_lt_one hlow)
    have hn := Nat.mod_lt n (Nat.lt_trans Nat.zero_lt_one hlow)
    split at h <;> split at h
    · exact digitChar_injective (by omega) (by omega) (by simpa using h)
    · have hlen := congrArg List.length h
      have hpos := @Nat.length_toDigits_pos base (n / base)
      simp only [length_cons, length_append, length_nil] at hlen
      omega
    · have hlen := congrArg List.length h
      have hpos := @Nat.length_toDigits_pos base (m / base)
      simp only [length_cons, length_append, length_nil] at hlen
      omega
    · rename_i hge _
      obtain ⟨hhead, hlast⟩ := append_inj' h rfl
      have hquot := ih (m / base) (Nat.div_lt_self (by omega) hlow) hhead
      have hrem : m % base = n % base :=
        digitChar_injective (by omega) (by omega) (by simpa using hlast)
      rw [← Nat.div_add_mod m base, ← Nat.div_add_mod n base, hquot, hrem]

theorem digitChar_ne_brace {n : Nat} (hn : n < 16) : n.digitChar ≠ '\x7d' := by
  have table : ∀ a < 16, Nat.digitChar a ≠ '\x7d' := by decide
  exact table n hn

theorem brace_not_mem_toDigits : ∀ (n : Nat) (c : Char), c ∈ Nat.toDigits 16 n → c ≠ '\x7d' := by
  intro n
  induction n using Nat.strong_induction_on with
  | _ n ih =>
    intro c hc
    rw [Nat.toDigits_eq_if (by decide)] at hc
    split at hc
    · rename_i hlt
      obtain rfl := mem_singleton.mp hc
      exact digitChar_ne_brace hlt
    · rcases mem_append.mp hc with hc | hc
      · exact ih (n / 16) (by omega) c hc
      · obtain rfl := mem_singleton.mp hc
        exact digitChar_ne_brace (Nat.mod_lt n (by decide))

theorem decimal_reads_back : ReadsBack fun n : Nat => Nat.toDigits 10 n ++ [','] := by
  intro m n rest rest' h
  simp only [append_assoc, singleton_append] at h
  obtain ⟨hdigits, hrest⟩ := word_reads_back (p := fun c => c.isDigit = true)
    (fun c hc => Nat.isDigit_of_mem_toDigits (by decide) (by decide) hc)
    (fun c hc => Nat.isDigit_of_mem_toDigits (by decide) (by decide) hc)
    (by decide) (by decide) h
  exact ⟨toDigits_injective (by decide) (by decide) hdigits, by simpa using hrest⟩

variable {c : Char}

theorem shortEscape_injective {d letter : Char} (hc : shortEscape c = some letter)
    (hd : shortEscape d = some letter) : c = d := by
  unfold shortEscape at hc hd
  split at hc <;> split at hd <;> simp only [Option.some.injEq, reduceCtorEq] at hc hd
  all_goals first
    | rfl
    | exact absurd (hc.trans hd.symm) (by decide)

theorem shortEscape_ne_u {letter : Char} (h : shortEscape c = some letter) : letter ≠ 'u' := by
  unfold shortEscape at h
  split at h <;> simp only [Option.some.injEq, reduceCtorEq] at h
  all_goals
    subst h
    decide

/-- The three ways a character is written in a quoted text. -/
inductive Written (c : Char) : Text → Prop
  | letter (letter : Char) (h : shortEscape c = some letter) : Written c ['\\', letter]
  | plain (h : shortEscape c = none) : Written c [c]
  | code : Written c (escapeUnicode c)

theorem ne_backslash_of_plain (h : shortEscape c = none) : c ≠ '\\' := by
  rintro rfl
  simp [shortEscape] at h

theorem ne_quote_of_plain (h : shortEscape c = none) : c ≠ '"' := by
  rintro rfl
  simp [shortEscape] at h

theorem escapeUnicode_eq (c : Char) :
    escapeUnicode c = '\\' :: 'u' :: '\x7b' :: (Nat.toDigits 16 c.toNat ++ ['\x7d']) := rfl

theorem escapeUnicode_reads_back : ReadsBack escapeUnicode := by
  intro c d rest rest' h
  simp only [escapeUnicode_eq, cons_append, List.cons.injEq, true_and, append_assoc,
    nil_append] at h
  obtain ⟨hdigits, hrest⟩ := word_reads_back (p := (· ≠ '\x7d'))
    (brace_not_mem_toDigits c.toNat) (brace_not_mem_toDigits d.toNat) (by simp) (by simp) h
  refine ⟨?_, by simpa using hrest⟩
  exact Char.toNat_inj.mp (toDigits_injective (by decide) (by decide) hdigits)

/-- Two written characters that begin one text are the same character. -/
theorem Written.unique {d : Char} {code code' rest rest' : Text} (hc : Written c code)
    (hd : Written d code') (h : code ++ rest = code' ++ rest') : c = d ∧ rest = rest' := by
  cases hc with
  | letter l hl =>
    cases hd with
    | letter l' hl' =>
      simp only [cons_append, nil_append, List.cons.injEq, true_and] at h
      obtain ⟨rfl, hrest⟩ := h
      exact ⟨shortEscape_injective hl hl', hrest⟩
    | plain hp =>
      simp only [cons_append, nil_append, List.cons.injEq] at h
      exact absurd h.1.symm (ne_backslash_of_plain hp)
    | code =>
      simp only [escapeUnicode_eq, cons_append, nil_append, List.cons.injEq] at h
      exact absurd h.2.1 (shortEscape_ne_u hl)
  | plain hp =>
    cases hd with
    | letter l' hl' =>
      simp only [cons_append, nil_append, List.cons.injEq] at h
      exact absurd h.1 (ne_backslash_of_plain hp)
    | plain hp' => simpa using h
    | code =>
      simp only [escapeUnicode_eq, cons_append, nil_append, List.cons.injEq] at h
      exact absurd h.1 (ne_backslash_of_plain hp)
  | code =>
    cases hd with
    | letter l' hl' =>
      simp only [escapeUnicode_eq, cons_append, nil_append, List.cons.injEq] at h
      exact absurd h.2.1.symm (shortEscape_ne_u hl')
    | plain hp' =>
      simp only [escapeUnicode_eq, cons_append, nil_append, List.cons.injEq] at h
      exact absurd h.1.symm (ne_backslash_of_plain hp')
    | code => exact escapeUnicode_reads_back c d rest rest' h

section Escapes

variable [CharTables]

theorem escapeDebug_written (c : Char) : Written c (escapeDebug c) := by
  unfold escapeDebug
  split
  · rename_i letter h
    exact .letter letter h
  · rename_i h
    split
    · exact .code
    · split
      · exact .plain h
      · exact .code

theorem escapeDebug_reads_back : ReadsBack escapeDebug := by
  intro c d rest rest' h
  exact (escapeDebug_written c).unique (escapeDebug_written d) h

theorem escapeDebug_opens : Opens escapeDebug '"' := by
  intro c
  have hwritten := escapeDebug_written c
  generalize escapeDebug c = code at hwritten
  cases hwritten with
  | letter l hl => exact ⟨'\\', [l], rfl, by decide⟩
  | plain hp => exact ⟨c, [], rfl, ne_quote_of_plain hp⟩
  | code => exact ⟨'\\', _, escapeUnicode_eq c, by decide⟩

theorem debugStr_reads_back : ReadsBack debugStr := by
  intro text text' rest rest' h
  simp only [debugStr, cons_append, List.cons.injEq, true_and] at h
  exact escapeDebug_reads_back.sequence escapeDebug_opens text text' rest rest' h

theorem debugOption_reads_back : ReadsBack debugOption := by
  intro binding binding' rest rest' h
  cases binding with
  | none =>
    cases binding' with
    | none => exact ⟨rfl, by simpa using h⟩
    | some text => simp [debugOption] at h
  | some text =>
    cases binding' with
    | none => simp [debugOption] at h
    | some text' =>
      simp only [debugOption, append_assoc] at h
      obtain ⟨rfl, hrest⟩ := debugStr_reads_back text text' _ _ (append_cancel_left h)
      exact ⟨rfl, by simpa using hrest⟩

end Escapes

theorem separator_unbordered : Unbordered RemoteOwner.separator := by
  intro head border tail hsplit hborder
  change ['/', 'p', ':'] = _ at hsplit hborder
  have hlen := congrArg List.length hsplit
  rcases head with _ | ⟨a, _ | ⟨b, _ | ⟨c, head⟩⟩⟩
  · exact .inl rfl
  · -- the border would be all but the first character
    cases hsplit
    exact absurd (List.cons.inj hborder).1 (by decide)
  · obtain ⟨-, htail⟩ := List.cons.inj hsplit
    cases htail
    exact absurd (List.cons.inj hborder).1 (by decide)
  · simp only [length_cons, length_nil, length_append] at hlen
    exact .inr (eq_nil_of_length_eq_zero (by omega))

/-- Two different owners whose halves run together in their keys: a username that contains the
separator reads as a username and a profile, and so does a shift of the separator between the two
halves. -/
def RemoteOwner.RunTogether : RemoteOwner → RemoteOwner → Prop
  | username name, usernameAndProfile user profile => name = user ++ separator ++ profile
  | usernameAndProfile user profile, username name => name = user ++ separator ++ profile
  | usernameAndProfile user profile, usernameAndProfile user' profile' =>
    Shifted separator user profile user' profile' ∨ Shifted separator user' profile' user profile
  | _, _ => False

theorem RemoteOwner.key_eq_iff (owner owner' : RemoteOwner) :
    owner.key = owner'.key ↔ owner = owner' ∨ owner.RunTogether owner' := by
  cases owner with
  | username name | profileIdentifier profile =>
    cases owner' with
    | username name' => simp [key, RunTogether]
    | profileIdentifier profile' => simp [key, RunTogether]
    | usernameAndProfile name' profile' => simp [key, RunTogether]
  | usernameAndProfile name profile =>
    cases owner' with
    | username name' => simp [key, RunTogether, eq_comm]
    | profileIdentifier profile' => simp [key, RunTogether]
    | usernameAndProfile name' profile' =>
      simp only [key, RunTogether, append_cancel_left_eq, usernameAndProfile.injEq]
      exact joined_eq_iff separator_unbordered

/-- The same user, host and path are reached under the same verified identity. -/
structure RemoteOrigin.SameUnderKey (origin origin' : RemoteOrigin) : Prop where
  ownerKey : origin.owner.key = origin'.owner.key
  host : origin.host = origin'.host
  port : origin.port = origin'.port
  fingerprint : origin.verifiedHostKeyFingerprint = origin'.verifiedHostKeyFingerprint
  path : origin.path = origin'.path
  generation : origin.lifecycleGeneration = origin'.lifecycleGeneration
  binding : origin.sessionBinding = origin'.sessionBinding

variable (origin : RemoteOrigin)

section Keys

variable [CharTables]

theorem RemoteOrigin.debugIdentity_flat : origin.debugIdentity =
      '(' :: (debugStr origin.owner.key ++ (", ".toList ++ (debugStr origin.host ++ (", ".toList ++
        ((Nat.toDigits 10 origin.port.toNat ++ [',']) ++ (' ' ::
        (debugStr origin.verifiedHostKeyFingerprint ++ (", ".toList ++ (debugStr origin.path ++
        (", ".toList ++ ((Nat.toDigits 10 origin.lifecycleGeneration.toNat ++ [',']) ++
        (' ' :: (debugOption origin.sessionBinding ++ [')']))))))))))))) := by
  simp [debugIdentity, debugTuple, List.intercalate, List.intersperse]

theorem RemoteOrigin.debugIdentity_eq_iff (origin' : RemoteOrigin) :
    origin.debugIdentity = origin'.debugIdentity ↔ origin.SameUnderKey origin' := by
  constructor
  · intro h
    rw [debugIdentity_flat, debugIdentity_flat] at h
    obtain ⟨howner, h⟩ := debugStr_reads_back _ _ _ _ (List.cons.inj h).2
    obtain ⟨hhost, h⟩ := debugStr_reads_back _ _ _ _ (append_cancel_left h)
    obtain ⟨hport, h⟩ := decimal_reads_back _ _ _ _ (append_cancel_left h)
    obtain ⟨hprint, h⟩ := debugStr_reads_back _ _ _ _ (List.cons.inj h).2
    obtain ⟨hpath, h⟩ := debugStr_reads_back _ _ _ _ (append_cancel_left h)
    obtain ⟨hgen, h⟩ := decimal_reads_back _ _ _ _ (append_cancel_left h)
    obtain ⟨hbinding, -⟩ := debugOption_reads_back _ _ _ _ (List.cons.inj h).2
    exact ⟨howner, hhost, UInt16.toNat_inj.mp hport, hprint, hpath, UInt64.toNat_inj.mp hgen, hbinding⟩
  · rintro ⟨howner, hhost, hport, hprint, hpath, hgen, hbinding⟩
    simp only [debugIdentity, howner, hhost, hport, hprint, hpath, hgen, hbinding]

end Keys

def Utf8Chunk.Replaced (chunk : Utf8Chunk) : Prop :=
  chunk.scalar = none ∨ chunk.scalar = some replacementCharacter

def Utf8Chunk.ShownAlike (chunk chunk' : Utf8Chunk) : Prop :=
  chunk.scalar = chunk'.scalar ∨ chunk.Replaced ∧ chunk'.Replaced

theorem Utf8Chunk.shownAlike_iff (chunk chunk' : Utf8Chunk) : chunk.ShownAlike chunk' ↔
      chunk.scalar.getD replacementCharacter = chunk'.scalar.getD replacementCharacter := by
  rcases chunk with ⟨bytes, scalar⟩
  rcases chunk' with ⟨bytes', scalar'⟩
  cases scalar with
  | none =>
    cases scalar' with
    | none => simp [ShownAlike]
    | some c => simp [ShownAlike, Replaced, eq_comm]
  | some c =>
    cases scalar' with
    | none => simp [ShownAlike, Replaced]
    | some d =>
      simp only [ShownAlike, Replaced, Option.some.injEq, reduceCtorEq, false_or, Option.getD_some]
      constructor
      · rintro (h | ⟨hc, hd⟩)
        · exact h
        · rw [hc, hd]
      · exact .inl

def PathsRunTogether (path path' : List UInt8) : Prop :=
  path ≠ path' ∧ Forall₂ Utf8Chunk.ShownAlike (utf8Chunks path) (utf8Chunks path')

theorem displayPath_eq_iff (path path' : List UInt8) : displayPath path = displayPath path' ↔
      Forall₂ Utf8Chunk.ShownAlike (utf8Chunks path) (utf8Chunks path') := by
  unfold displayPath
  rw [← forall₂_eq_eq_eq, forall₂_map_left_iff, forall₂_map_right_iff]
  constructor <;> intro h <;> refine Forall₂.imp ?_ h
  · exact fun _ _ => (Utf8Chunk.shownAlike_iff _ _).mpr
  · exact fun _ _ => (Utf8Chunk.shownAlike_iff _ _).mp

/-- Two origins name the same owner and the same path. -/
def DocumentOrigin.SameDocument : DocumentOrigin → DocumentOrigin → Prop
  | localFile origin, localFile origin' => origin.path = origin'.path
  | remote origin, remote origin' =>
    origin.devTunnel = origin'.devTunnel ∧ origin.owner = origin'.owner ∧
      origin.host = origin'.host ∧ origin.port = origin'.port ∧ origin.path = origin'.path
  | untitled origin, untitled origin' => origin.key = origin'.key
  | _, _ => False

/-- Everything of two remote origins that their keys show agrees, the owners apart. -/
structure RemoteOrigin.SameBesidesOwner (origin origin' : RemoteOrigin) : Prop where
  provider : origin.devTunnel = origin'.devTunnel
  host : origin.host = origin'.host
  port : origin.port = origin'.port
  fingerprint : origin.verifiedHostKeyFingerprint = origin'.verifiedHostKeyFingerprint
  path : origin.path = origin'.path
  generation : origin.lifecycleGeneration = origin'.lifecycleGeneration
  binding : origin.sessionBinding = origin'.sessionBinding

/-- The origins whose keys cannot tell them apart: remote files of owners that run together, and
local files whose paths do. -/
def DocumentOrigin.RunTogether : DocumentOrigin → DocumentOrigin → Prop
  | localFile origin, localFile origin' => PathsRunTogether origin.path origin'.path
  | remote origin, remote origin' =>
    origin.owner.RunTogether origin'.owner ∧ origin.SameBesidesOwner origin'
  | _, _ => False

theorem Shifted.left_ne {left right left' right' : Text}
    (h : Shifted RemoteOwner.separator left right left' right') : left ≠ left' := by
  obtain ⟨mid, rfl, rfl⟩ := h
  intro heq
  have hlen := congrArg List.length heq
  simp [RemoteOwner.separator] at hlen

theorem RemoteOwner.RunTogether.ne {owner owner' : RemoteOwner} (h : owner.RunTogether owner') :
    owner ≠ owner' := by
  rintro rfl
  cases owner with
  | username name | profileIdentifier profile => exact h
  | usernameAndProfile name profile =>
    rcases h with h | h
    · exact Shifted.left_ne h rfl
    · exact Shifted.left_ne h rfl

section Keys

variable [CharTables]

theorem key_localFile (origin : LocalOrigin) :
    (DocumentOrigin.localFile origin).key = "local:".toList ++ displayPath origin.path := rfl

theorem key_remote : (DocumentOrigin.remote origin).key =
      (if origin.devTunnel then "dev-tunnel".toList else "sftp".toList) ++
        ':' :: origin.debugIdentity := rfl

theorem key_untitled (origin : UntitledOrigin) :
    (DocumentOrigin.untitled origin).key = "untitled:".toList ++ origin.key := rfl

theorem remote_key_eq_iff (origin' : RemoteOrigin) :
    (DocumentOrigin.remote origin).key = (DocumentOrigin.remote origin').key ↔
      origin.devTunnel = origin'.devTunnel ∧ origin.SameUnderKey origin' := by
  rw [← RemoteOrigin.debugIdentity_eq_iff]
  cases h : origin.devTunnel <;> cases h' : origin'.devTunnel <;> simp [key_remote, h, h']

/-- A key names one document, except between origins that run together. -/
theorem key_names_one_document (origin origin' : DocumentOrigin) :
    (origin.key = origin'.key → origin.SameDocument origin') ↔ ¬ origin.RunTogether origin' := by
  cases origin with
  | localFile first =>
    cases origin' with
    | localFile second =>
      simp only [key_localFile, append_cancel_left_eq, displayPath_eq_iff,
        DocumentOrigin.SameDocument, DocumentOrigin.RunTogether, PathsRunTogether]
      tauto
    | remote second =>
      cases h : second.devTunnel <;> simp [key_localFile, key_remote, DocumentOrigin.RunTogether, h]
    | untitled second => simp [key_localFile, key_untitled, DocumentOrigin.RunTogether]
  | remote first =>
    cases origin' with
    | localFile second =>
      cases h : first.devTunnel <;> simp [key_localFile, key_remote, DocumentOrigin.RunTogether, h]
    | remote second =>
      rw [remote_key_eq_iff]
      constructor
      · rintro hkey ⟨howner, hprovider, hhost, hport, hprint, hpath, hgen, hbinding⟩
        have hkeys := (RemoteOwner.key_eq_iff _ _).mpr (.inr howner)
        have hsame := hkey ⟨hprovider, hkeys, hhost, hport, hprint, hpath, hgen, hbinding⟩
        exact howner.ne hsame.2.1
      · rintro hapart ⟨hprovider, hkeys, hhost, hport, hprint, hpath, hgen, hbinding⟩
        rcases (RemoteOwner.key_eq_iff _ _).mp hkeys with howner | howner
        · exact ⟨hprovider, howner, hhost, hport, hpath⟩
        · exact absurd ⟨howner, hprovider, hhost, hport, hprint, hpath, hgen, hbinding⟩ hapart
    | untitled second =>
      cases h : first.devTunnel <;> simp [key_remote, key_untitled, DocumentOrigin.RunTogether, h]
  | untitled first =>
    cases origin' with
    | localFile second => simp [key_localFile, key_untitled, DocumentOrigin.RunTogether]
    | remote second =>
      cases h : second.devTunnel <;> simp [key_remote, key_untitled, DocumentOrigin.RunTogether, h]
    | untitled second =>
      simp [key_untitled, DocumentOrigin.SameDocument, DocumentOrigin.RunTogether]

end Keys

/-- The user `fes/p:lab` and the user `fes` of the profile `lab` reach one host under one key. -/
theorem owners_share_key :
    letI := CharTables.ascii
    ∃ first second : RemoteOrigin,
      (do RemoteOrigin.new "web".toList 22 (← RemoteOwner.newUsername "fes/p:lab".toList)
            "SHA256:abc".toList "/srv/a".toList 7) = Except.ok first ∧
      (do RemoteOrigin.new "web".toList 22
            (← RemoteOwner.newUsernameAndProfile "fes".toList "lab".toList)
            "SHA256:abc".toList "/srv/a".toList 7) = Except.ok second ∧
      (DocumentOrigin.remote first).key = (DocumentOrigin.remote second).key ∧
      ¬ (DocumentOrigin.remote first).SameDocument (DocumentOrigin.remote second) := by
  refine ⟨⟨none, false, "web".toList, 22, .username "fes/p:lab".toList, "SHA256:abc".toList,
      "/srv/a".toList, "a".toList, 7⟩,
    ⟨none, false, "web".toList, 22, .usernameAndProfile "fes".toList "lab".toList,
      "SHA256:abc".toList, "/srv/a".toList, "a".toList, 7⟩, ?_, ?_, ?_, ?_⟩
  · decide +kernel
  · decide +kernel
  · decide +kernel
  · simp [DocumentOrigin.SameDocument]

end FesTerm.Document
