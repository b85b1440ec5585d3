import WolfCLU.Crypto.EvpCrypto

namespace WolfCLU
open Buffer CString

inductive Algo where
  | aes128ctr
  | aes192ctr
  | aes256ctr
  | aes128cbc
  | aes192cbc
  | aes256cbc
  | camellia128cbc
  | camellia192cbc
  | camellia256cbc
  | descbc
  | other (n : Nat)
  deriving DecidableEq, Repr

def Algo.isCamellia : Algo → Bool
  | camellia128cbc | camellia192cbc | camellia256cbc => true
  | _ => false

structure CamelliaLib where
  pbkdf2 : List Byte → List Byte → Nat → Nat → List Byte
  cbcEncrypt : List Byte → List Byte → List Byte → List Byte
  cbcDecrypt : List Byte → List Byte → List Byte → List Byte

inductive CamelliaFault where
  | openIn
  | rngInit
  | generateIv
  | generateSalt
  | pbkdf2
  | openOut
  | inputAlloc
  | outputAlloc
  | setKey
  | readIn
  | append
  deriving DecidableEq, Repr

structure CamelliaRun where
  ret : Int
  out : List Byte
  derivations : Nat
  inits : List CipherInit
  deriving DecidableEq, Repr

def maxLen : Nat := 1024
def clu4kType : Nat := 4096
-- the values of the wolfSSL codes below lie outside the repository, only their sign matters
def freadError : Int := -4
def fwriteError : Int := -5
def decryptError : Int := -6
def encryptError : Int := -7

def padLength (block : Nat) : Nat → Int → Nat → Int × Nat
  | 0, length, padCounter => (length, padCounter)
  | fuel + 1, length, padCounter =>
    if length.tmod block ≠ 0 then
      padLength block fuel (MachineInt.toInt32 (length + 1)) (padCounter + 1)
    else (length, padCounter)

def genKeyPwdBased (lib : CamelliaLib) (pwdKey : List Byte) (size : Nat) (random : List Byte)
    (pad : Nat) : List Byte × List Byte :=
  let salt := random.take (saltSize - 1) ++ [0]
  let salt :=
    if pad = 0 then 0 :: salt.tail
    else if salt.headD 0 = 0 then 1 :: salt.tail
    else salt
  (blit pwdKey 0 (lib.pbkdf2 (cstr pwdKey) salt clu4kType size), salt)

section Camellia
variable (lib : CamelliaLib) (fault : CamelliaFault → Bool)

structure ChunkCipher where
  alg : Algo
  mode : List Byte
  key : List Byte
  size : Nat
  iv : List Byte

def ChunkCipher.init (c : ChunkCipher) (enc : Bool) : CipherInit :=
  ⟨c.key.take (c.size / 8), c.iv, enc⟩

def nextChunk (rest : List Byte) (eof : Bool) : List Byte := if eof then [] else rest.take maxLen

def chunkPadding (padCounter : Nat) (chunk : List Byte) : List Byte :=
  if chunk.length ≠ maxLen then List.replicate padCounter (UInt8.ofNat padCounter) else []

def camelliaEncryptLoop (c : ChunkCipher) (padCounter : Nat) (rest : List Byte) (eof : Bool)
    (input output : List Byte) (length : Int) (out : List Byte) (inits : List CipherInit) :
    Option (Int × List Byte × List CipherInit) :=
  if _hlen : length > 0 then
    if fault .readIn then some (freadError, out, inits)
    else
      let chunk := nextChunk rest eof
      let eof := eof || decide (chunk.length < maxLen)
      let input := blit input 0 chunk
      let padded := chunkPadding padCounter chunk
      let input := blit input chunk.length padded
      let tempMax := chunk.length + padded.length
      if c.alg.isCamellia ∧ fault .setKey then some (wolfcluFatalError, out, inits)
      else if c.alg.isCamellia ∧ strncmp c.mode (str "cbc") 3 ≠ 0 then
        some (wolfcluFatalError, out, inits ++ [c.init true])
      else
        let output :=
          if c.alg.isCamellia then
            blit output 0 (lib.cbcEncrypt (c.init true).key c.iv (input.take tempMax))
          else output
        let inits := if c.alg.isCamellia then inits ++ [c.init true] else inits
        if fault .append then some (fwriteError, out, inits)
        else if _htemp : tempMax = 0 then none
        else
          camelliaEncryptLoop c padCounter (if eof then [] else rest.drop maxLen) eof input output
            (length - tempMax) (out ++ output.take tempMax) inits
  else some (wolfcluSuccess, out, inits)
termination_by length.toNat
decreasing_by
  simp only [tempMax, padded, chunk] at _htemp ⊢
  omega

def camelliaEncrypt (alg : Algo) (mode pwdKey key : List Byte) (size : Nat) (inName : List Byte)
    (inFile : Option (List Byte)) (randomIv randomSalt iv : List Byte) (block : Nat)
    (ivCheck : Bool) : Option CamelliaRun :=
  let contents := inFile.getD inName
  if fault .openIn then some ⟨wolfcluFatalError, [], 0, []⟩
  else if fault .rngInit then some ⟨wolfcluFatalError, [], 0, []⟩
  else
    let (length, padCounter) := padLength block block (MachineInt.toInt32 contents.length) 0
    if ¬ ivCheck ∧ fault .generateIv then some ⟨wolfcluFatalError, [], 0, []⟩
    else if ¬ ivCheck ∧ (fault .generateSalt ∨ fault .pbkdf2) then
      some ⟨wolfcluFatalError, [], 1, []⟩
    else
      let iv := if ivCheck then iv else blit iv 0 (randomIv.take block)
      let (pwdKey, salt) :=
        if ivCheck then (pwdKey, List.replicate saltSize 0)
        else genKeyPwdBased lib pwdKey size randomSalt padCounter
      let key := if ivCheck then key else blit key 0 (pwdKey.take size)
      let derivations := if ivCheck then 0 else 1
      if fault .openOut then some ⟨wolfcluFatalError, [], derivations, []⟩
      else if fault .inputAlloc ∨ fault .outputAlloc then
        some ⟨memoryE, salt ++ iv.take block, derivations, []⟩
      else
        (camelliaEncryptLoop lib fault ⟨alg, mode, key, size, iv.take block⟩ padCounter contents
          false (List.replicate maxLen 0) (List.replicate maxLen 0) length
          (salt ++ iv.take block) []).map fun (ret, out, inits) => ⟨ret, out, derivations, inits⟩

structure DecryptState where
  ret : Int
  output : List Byte
  tempMax : Nat
  length : Int
  out : List Byte
  inits : List CipherInit

def camelliaDecryptLoop (c : ChunkCipher) (rest : List Byte) (eof : Bool) (curr last : Int)
    (st : DecryptState) : DecryptState :=
  if st.length > 0 then
    if eof then { st with ret := freadError }
    else
      let input := if fault .readIn then [] else rest.take maxLen
      if _hin : input.length = 0 then { st with ret := freadError }
      else if c.alg.isCamellia ∧ fault .setKey then
        { st with ret := wolfcluFatalError, tempMax := input.length }
      else
        let output :=
          if c.alg.isCamellia then
            blit st.output 0 (lib.cbcDecrypt (c.init false).key c.iv input)
          else st.output
        let inits := if c.alg.isCamellia then st.inits ++ [c.init false] else st.inits
        let st := { st with output := output, tempMax := input.length, inits := inits }
        if curr = last then st
        else
          camelliaDecryptLoop c (rest.drop maxLen) (decide (input.length < maxLen)) (curr + 1) last
            { st with
              out := st.out ++ output.take input.length
              length := st.length - input.length }
  else st
termination_by rest.length
decreasing_by
  simp only [input] at _hin
  split_ifs at _hin
  · exact absurd rfl _hin
  · simp only [List.length_take, List.length_drop] at _hin ⊢
    omega

def camelliaFinish (saltAndIvSize : Nat) (marker : Byte) (st : DecryptState) : Int × List Byte :=
  if st.ret ≠ 0 then (st.ret, st.out)
  else if marker ≠ 0 then
    let pad := ((st.output[st.tempMax - 1]?).getD 0).toNat
    let length := st.length - (pad + saltAndIvSize)
    if length < 0 then (-1, st.out)
    else (wolfcluSuccess, st.out ++ st.output.take length.toNat)
  else (wolfcluSuccess, st.out ++ st.output.take st.tempMax)

def camelliaDecrypt (alg : Algo) (mode pwdKey key : List Byte) (size : Nat) (inFile iv : List Byte)
    (block : Nat) (keyType : KeyType) : CamelliaRun :=
  let saltAndIvSize := saltSize + block
  if fault .openIn ∨ fault .openOut then ⟨decryptError, [], 0, []⟩
  else
    let length := MachineInt.toInt32 inFile.length
    if length ≤ saltAndIvSize then ⟨decryptError, [], 0, []⟩
    else
      let payload := length - saltAndIvSize
      let last := if payload % maxLen > 0 then payload / maxLen + 1 else payload / maxLen
      if fault .inputAlloc ∨ fault .outputAlloc then ⟨memoryE, [], 0, []⟩
      else if fault .rngInit then ⟨wolfcluFatalError, [], 0, []⟩
      else if inFile.length < saltAndIvSize then ⟨freadError, [], 0, []⟩
      else
        let salt := inFile.take saltSize
        let iv := blit iv 0 ((inFile.drop saltSize).take block)
        let derivations := if keyType = .password then 1 else 0
        if keyType = .password ∧ fault .pbkdf2 then ⟨encryptError, [], derivations, []⟩
        else if keyType = .user ∧ (key.take size).all (· = 0) then
          ⟨encryptError, [], derivations, []⟩
        else
          let key :=
            if keyType = .password then blit key 0 (lib.pbkdf2 (cstr pwdKey) salt clu4kType size)
            else key
          let st := camelliaDecryptLoop lib fault ⟨alg, mode, key, size, iv.take block⟩
            (inFile.drop saltAndIvSize) false 1 last
            ⟨0, List.replicate maxLen 0, maxLen, length, [], []⟩
          let (ret, out) := camelliaFinish saltAndIvSize (salt.headD 0) st
          ⟨ret, out, derivations, st.inits⟩

end Camellia

end WolfCLU
