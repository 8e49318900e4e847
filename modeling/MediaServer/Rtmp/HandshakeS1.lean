import MediaServer.Rtmp.HandshakeSlices

/-!
# The digest of S1

`parse_c1` finds the schema of a C1, and `make_s1` lays S1 out by `schema_`.
`parseC1_cases` says what is in the handle between them.  `schema_` is always the other
schema than the one that was found.

The digest is computed over bytes that `make_s1_digest` joins and that `make_key` and
`make_digest` write again.  The one takes the key of the peer and the others the shared
key, and the order is that of schema 0 in any case (`joinedBytes_iff_of_schema0`).
-/

namespace MediaServer

namespace C1s1Handle

/-- Where the offset field of its digest block puts the digest of a message. -/
def digestPos (schema : HandshakeSchema) (message : Bytes) : Nat :=
  digestStart schema + 4 +
    (calcValidDigestOffset (read4bytes (message.drop (digestStart schema)))).toNat

/-- A message without its 32 bytes of digest. -/
def withoutDigest (schema : HandshakeSchema) (message : Bytes) : Bytes :=
  message.take (digestPos schema message) ++ message.drop (digestPos schema message + 32)

/-- The digest of a C1 is the code of the rest. -/
def ValidIn (hmac : HmacSha256) (schema : HandshakeSchema) (c1 : Bytes) : Prop :=
  (c1.drop (digestPos schema c1)).take 32 =
    hmac.code (GENUINE_FLASH_PLAYER_KEY.take 30) (withoutDigest schema c1)

instance (hmac : HmacSha256) (schema : HandshakeSchema) (c1 : Bytes) :
    Decidable (ValidIn hmac schema c1) := inferInstanceAs (Decidable (_ = _))

/-- The schema in which a C1 is found valid.  Schema 1 is tried first. -/
def foundSchema (hmac : HmacSha256) (c1 : Bytes) : Option HandshakeSchema :=
  if ValidIn hmac .schema1 c1 then some .schema1
  else if ValidIn hmac .schema0 c1 then some .schema0
  else none

/-- S1 is laid out in the schema of C1, and its digest is computed over the rest of
it. -/
def CorrectS1 (found : HandshakeSchema) (h : C1s1Handle) (s1 : Bytes) : Prop :=
  h.schema = found ∧ h.joinedBytes = withoutDigest h.schema s1

instance (found : HandshakeSchema) (h : C1s1Handle) (s1 : Bytes) :
    Decidable (CorrectS1 found h s1) := inferInstanceAs (Decidable (_ ∧ _))

/-! ## What `parse_c1` finds -/

section Parse

variable {hmac : HmacSha256} {schema : HandshakeSchema} {c1 : Bytes} {h : C1s1Handle}

/-- The digest of a message, from the parts of its digest block. -/
theorem DigestSplit.digestPos (hsplit : DigestSplit (blockAt c1 (digestStart schema)) h) :
    digestPos schema c1 = digestStart schema + 4 + h.digestRandom0.length := by
  have hfield : read4bytes (c1.drop (digestStart schema)) = h.c1DigestOffset := by
    have hblock := hsplit.bytes
    rw [blockAt] at hblock
    rw [← List.take_append_drop 764 (c1.drop (digestStart schema)), hblock]
    simp only [List.append_assoc, read4bytes_write4bytes]
  rw [C1s1Handle.digestPos, hfield, hsplit.offset]

/-- `check_digest_valid` finds out what it should. -/
theorem Sliced.checkDigestValid (hsliced : Sliced schema c1 h) :
    h.checkDigestValid hmac schema = .ok (decide (ValidIn hmac schema c1)) := by
  obtain ⟨first, second, -, hcheck, hbytes, hfirst⟩ := hsliced.hashed
  have hpos := hsliced.digest.digestPos
  rw [← hfirst] at hpos
  have hdigest : (c1.drop (digestPos schema c1)).take 32 = h.digestData := by
    rw [hpos, hbytes, List.append_assoc, List.drop_left, ← hsliced.digest.digest, List.take_left]
  have hrest : withoutDigest schema c1 = first ++ second := by
    have hlast : (first ++ h.digestData).length = first.length + 32 := by
      rw [List.length_append, hsliced.digest.digest]
    rw [withoutDigest, hpos, ← hlast]
    conv_lhs => rw [hbytes]
    rw [List.drop_left, List.append_assoc, List.take_left]
  rw [hcheck hmac]
  exact congrArg Except.ok (decide_eq_decide.mpr (by rw [ValidIn, hdigest, hrest]))

/-- **What `parse_c1` does with a C1.**  It accepts the C1 in the schema that is found,
and notes the other one. -/
theorem parseC1_cases (hmac : HmacSha256) (h : C1s1Handle) (hlen : c1.length = 1536) :
    ∃ ret h', parseC1 hmac c1 h = .ok (ret, h') ∧
      (foundSchema hmac c1 = some .schema1 ∧ ret = 0 ∧ h'.schema = .schema0 ∧
          KeySplit (blockAt c1 (8 + 764)) h' ∧ DigestSplit (blockAt c1 8) h' ∨
        foundSchema hmac c1 = some .schema0 ∧ ret = 0 ∧ h'.schema = .schema1 ∧
          KeySplit (blockAt c1 8) h' ∧ DigestSplit (blockAt c1 (8 + 764)) h' ∨
        foundSchema hmac c1 = none ∧ ret = -1) := by
  have hall : c1.take 1536 = c1 := List.take_of_length_le (by omega)
  rw [parseC1, readAt_of_le (by omega), Run.ok_bind, List.drop_zero, hall]
  generalize hcopy : ({ h with c1Data := c1, c1Time := read4bytes c1
                               c1Version := read4bytes (c1.drop 4) } : C1s1Handle) = copy
  have hdata : copy.c1Data = c1 := by
    rw [← hcopy]
  have h1 := sliced_schema1 hlen hdata
  show ∃ ret h', (trySchema1 (c1.drop 8) copy >>= _) = _ ∧ _
  rw [trySchema1_eq copy hlen, Run.ok_bind, h1.checkDigestValid, Run.ok_bind]
  generalize hafter : (copy.withDigest (blockAt c1 8)).withKey (blockAt c1 (8 + 764)) = first at h1
  by_cases hvalid1 : ValidIn hmac .schema1 c1
  · refine ⟨0, { first with schema := .schema0 }, ?_, .inl ⟨?_, rfl, rfl, ?_, ?_⟩⟩
    · rw [decide_eq_true hvalid1]
      rfl
    · rw [foundSchema, if_pos hvalid1]
    · exact ⟨h1.key.bytes, h1.key.key, h1.key.offset⟩
    · exact ⟨h1.digest.bytes, h1.digest.digest, h1.digest.offset⟩
  · have hdata' : first.c1Data = c1 := by
      rw [← hafter]
      exact hdata
    have h0 := sliced_schema0 hlen hdata'
    rw [decide_eq_false hvalid1]
    show ∃ ret h', (trySchema0 (c1.drop 8) first >>= _) = _ ∧ _
    rw [trySchema0_eq first hlen, Run.ok_bind, h0.checkDigestValid, Run.ok_bind]
    generalize (first.withKey (blockAt c1 8)).withDigest (blockAt c1 (8 + 764)) = second at h0
    by_cases hvalid0 : ValidIn hmac .schema0 c1
    · refine ⟨0, { second with schema := .schema1 }, ?_, .inr (.inl ⟨?_, rfl, rfl, ?_, ?_⟩)⟩
      · rw [decide_eq_true hvalid0]
        rfl
      · rw [foundSchema, if_neg hvalid1, if_pos hvalid0]
      · exact ⟨h0.key.bytes, h0.key.key, h0.key.offset⟩
      · exact ⟨h0.digest.bytes, h0.digest.digest, h0.digest.offset⟩
    · refine ⟨-1, second, ?_, .inr (.inr ⟨?_, rfl⟩)⟩
      · rw [decide_eq_false hvalid0]
        rfl
      · rw [foundSchema, if_neg hvalid1, if_neg hvalid0]

end Parse

/-! ## What `make_s1` writes -/

section Make

variable {hmac : HmacSha256} {dh : DhGenKey} {block s1 : Bytes} {h h' : C1s1Handle}

/-- S1 is laid out by `schema_`. -/
theorem makeS1_cases (hmake : h.makeS1 hmac dh = some (s1, h')) :
    ∃ skey, dh.copySharedKey h.c1KeyData = some skey ∧
      h' = { h with
        s1TimeSec := h.c1Time
        s1Version := 0x01000504
        s1KeyData := skey
        s1DigestData := hmac.code (GENUINE_FLASH_PLAYER_KEY.take 36) h'.joinedBytes } ∧
      (h.schema = .schema0 ∧
          s1 = write4bytes h'.s1TimeSec ++ write4bytes h'.s1Version ++ h'.makeSchema0 ∨
        h.schema = .schema1 ∧
          s1 = write4bytes h'.s1TimeSec ++ write4bytes h'.s1Version ++ h'.makeSchema1) := by
  rw [makeS1] at hmake
  rcases hkey : dh.copySharedKey h.c1KeyData with _ | skey
  · rw [hkey] at hmake
    cases hmake
  · rw [hkey] at hmake
    refine ⟨skey, rfl, ?_⟩
    rcases hschema : h.schema with _ | _ | _
    · simp [hschema] at hmake
    · simp only [hschema, Option.bind_eq_bind, Option.bind_some, Option.some.injEq,
        Prod.mk.injEq] at hmake
      obtain ⟨rfl, rfl⟩ := hmake
      exact ⟨rfl, .inl ⟨rfl, rfl⟩⟩
    · simp only [hschema, Option.bind_eq_bind, Option.bind_some, Option.some.injEq,
        Prod.mk.injEq] at hmake
      obtain ⟨rfl, rfl⟩ := hmake
      exact ⟨rfl, .inr ⟨rfl, rfl⟩⟩

theorem length_makeKey (hlen : block.length = 764) (hkey : KeySplit block h)
    (hshared : h.s1KeyData.length = 128) : h.makeKey.length = 764 := by
  have htotal := congrArg List.length hkey.bytes
  have hpeer := hkey.key
  simp only [List.length_append, write4bytes_length] at htotal
  simp only [makeKey, List.length_append, write4bytes_length]
  omega

/-- In schema 0 the digest is computed over the rest of S1 just when the shared key is
the key of the peer. -/
theorem joinedBytes_iff_of_schema0 (hlen : block.length = 764) (hkey : KeySplit block h)
    (hshared : h.s1KeyData.length = 128) (hdigest : h.s1DigestData.length = 32)
    (hoffset : h.digestRandom0.length = (calcValidDigestOffset h.c1DigestOffset).toNat)
    (hs1 : s1 = write4bytes h.s1TimeSec ++ write4bytes h.s1Version ++ h.makeSchema0) :
    h.joinedBytes = withoutDigest .schema0 s1 ↔ h.s1KeyData = h.c1KeyData := by
  have hmade := length_makeKey hlen hkey hshared
  generalize hbefore : write4bytes h.s1TimeSec ++ write4bytes h.s1Version ++ h.makeKey ++
    (write4bytes h.c1DigestOffset ++ h.digestRandom0) = before
  have hparts : s1 = before ++ h.s1DigestData ++ h.digestRandom1 := by
    rw [hs1, ← hbefore, makeSchema0, makeDigest]
    simp only [List.append_assoc]
  have hpos : digestPos .schema0 s1 = before.length := by
    have hfield : s1.drop (8 + 764) = write4bytes h.c1DigestOffset ++
        (h.digestRandom0 ++ h.s1DigestData ++ h.digestRandom1) := by
      have hhead : (write4bytes h.s1TimeSec ++ write4bytes h.s1Version ++ h.makeKey).length =
          8 + 764 := by
        simp only [List.length_append, write4bytes_length, hmade]
      have hblocks : s1 = (write4bytes h.s1TimeSec ++ write4bytes h.s1Version ++ h.makeKey) ++
          (write4bytes h.c1DigestOffset ++ (h.digestRandom0 ++ h.s1DigestData ++ h.digestRandom1)) := by
        rw [hs1, makeSchema0, makeDigest]
        simp only [List.append_assoc]
      rw [hblocks, ← hhead, List.drop_left]
    rw [digestPos, digestStart, hfield, read4bytes_write4bytes, ← hoffset, ← hbefore]
    simp only [List.length_append, write4bytes_length, hmade]
    omega
  have hwithout : withoutDigest .schema0 s1 = before ++ h.digestRandom1 := by
    have hend : before.length + 32 = (before ++ h.s1DigestData).length := by
      rw [List.length_append, hdigest]
    rw [withoutDigest, hpos, hend]
    conv_lhs => rw [hparts]
    rw [List.drop_left, List.append_assoc, List.take_left]
  rw [hwithout, ← hbefore, joinedBytes, makeKey]
  simp only [List.append_assoc, List.append_cancel_left_eq]
  rw [List.append_cancel_right_eq, eq_comm]

end Make

/-- **S1 is never right.**  Whatever the HMAC and the exchange of keys compute, the S1
for an accepted C1 is laid out in the schema in which the C1 was not found valid. -/
theorem s1_never_correct {hmac : HmacSha256} {dh : DhGenKey} {c1 s1 : Bytes}
    {h h' h'' : C1s1Handle} (hlen : c1.length = 1536) (hparse : parseC1 hmac c1 h = .ok (0, h'))
    (hmake : h'.makeS1 hmac dh = some (s1, h'')) :
    ∃ found, foundSchema hmac c1 = some found ∧ ¬ CorrectS1 found h'' s1 := by
  obtain ⟨skey, -, hfinal, -⟩ := makeS1_cases hmake
  have hschema : h''.schema = h'.schema := by
    rw [hfinal]
  obtain ⟨ret, t, hcases, hfound⟩ := parseC1_cases hmac h hlen
  rw [hparse] at hcases
  cases hcases
  rcases hfound with ⟨hfound, -, hnoted, -⟩ | ⟨hfound, -, hnoted, -⟩ | ⟨-, hret⟩
  · refine ⟨.schema1, hfound, fun hcorrect => ?_⟩
    have huses := hcorrect.1
    rw [hschema, hnoted] at huses
    cases huses
  · refine ⟨.schema0, hfound, fun hcorrect => ?_⟩
    have huses := hcorrect.1
    rw [hschema, hnoted] at huses
    cases huses
  · cases hret

/-! ## A C1 of zeros -/

/-- 1536 zeros. -/
def zeroC1 : Bytes := List.replicate 1536 0

/-- The handle that has parsed it. -/
def zeroParsed : C1s1Handle := (parseC1 .zeros zeroC1 {}).toOption.elim {} Prod.snd

/-- S1 and the handle that has made it. -/
def zeroMade : Bytes × C1s1Handle := (zeroParsed.makeS1 .zeros (.const 1)).getD ([], {})

theorem parseC1_zeroC1 : parseC1 .zeros zeroC1 {} = .ok (0, zeroParsed) := by
  decide +kernel

theorem makeS1_zeroC1 : zeroParsed.makeS1 .zeros (.const 1) = some (zeroMade.1, zeroMade.2) := by
  decide +kernel

theorem s1_never_correct_zeros :
    ∃ found, foundSchema .zeros zeroC1 = some found ∧ ¬ CorrectS1 found zeroMade.2 zeroMade.1 :=
  s1_never_correct List.length_replicate parseC1_zeroC1 makeS1_zeroC1

/-- The key comes first in S1, as in schema 0, and the C1 was found valid in schema 1.
The bytes are those of no S1 in schema 1, and those that are hashed are not the rest of
S1. -/
theorem zeroS1_wrong :
    parseC1 .zeros zeroC1 {} = .ok (0, zeroParsed) ∧
      zeroParsed.makeS1 .zeros (.const 1) = some (zeroMade.1, zeroMade.2) ∧
      foundSchema .zeros zeroC1 = some .schema1 ∧ zeroMade.2.schema = .schema0 ∧
      ¬ CorrectS1 .schema1 zeroMade.2 zeroMade.1 ∧
      zeroMade.1 ≠ write4bytes zeroMade.2.s1TimeSec ++ write4bytes zeroMade.2.s1Version ++
        zeroMade.2.makeSchema1 ∧
      zeroMade.2.joinedBytes ≠ withoutDigest .schema0 zeroMade.1 := by
  refine ⟨parseC1_zeroC1, makeS1_zeroC1, ?_⟩
  decide +kernel

end C1s1Handle

end MediaServer
