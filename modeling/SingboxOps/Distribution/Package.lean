import SingboxOps.Distribution.Manifest
import SingboxOps.Lib.Utf8Encode
import Mathlib.Data.List.Sort

/-
  The streamed client package: the signed files of a
  distribution, repacked with a device's configuration.

  `zipfile` is given by the rows it finds in a stream and by
  the bytes each row leads to.
-/

namespace SingboxOps.Distribution

variable {F : Type}

def MAX_CLIENT_PACKAGE : ℕ := 70 * 1024 * 1024

def MAX_BUNDLE_BYTES : ℕ := 5 * 1024 * 1024

def CHUNK : ℕ := 65536

-- Libraries

structure ZipInfo where
  filename : PyStr
  compressType : ℕ
  flagBits : ℕ
  fileSize : ℕ
  crc : ℕ
deriving DecidableEq

/-
  The bytes of a member, as many as its row says are stored;
  `cut` where the stream ends before them.
-/
structure Body where
  data : Bytes
  cut : Bool

/- `open` of a row may raise `BadZipFile`. -/
structure ZipFile where
  infolist : List ZipInfo
  body : ZipInfo → Option Body

/- The functions of `zlib` and `zipfile`, beside those of a manifest. -/
structure Tools (F : Type) extends Checks F where
  crc32 : Bytes → ℕ
  zipFile : Bytes → Option ZipFile

/- `EOFError` is no error that `chunks` turns into its own. -/
inductive Raised where
  | distribution
  | eof
deriving DecidableEq

/- What is read from a position, at most so many bytes. -/
abbrev Source := ℕ → ℕ → Except Raised Bytes

/- `io.BytesIO` -/
def bytesIo (raw : Bytes) : Source := fun pos n => .ok ((raw.drop pos).take n)

/-
  A stored member as `ZipFile.open` reads it.  Its CRC is
  checked once the last byte has been read.
-/
def zipExtFile (crc32 : Bytes → ℕ) (row : ZipInfo) (body : Body) : Source := fun pos n =>
    let data := body.data.take row.fileSize
    if pos + n < data.length then .ok ((data.drop pos).take n)
    else if body.cut = true ∧ data.length < row.fileSize then
      if pos + n = data.length then .ok ((data.drop pos).take n)
      else .error .eof
    else if crc32 data = row.crc then .ok ((data.drop pos).take n)
    else .error .distribution

-- Construction

/- `archive.getinfo(name)` -/
def ZipFile.getinfo (archive : ZipFile) (name : PyStr) : Option ZipInfo :=
  archive.infolist.reverse.find? (fun row => decide (row.filename = name))

/- `require_client_package` raises nothing. -/
def requireClientPackage (c : Tools F) (archive : ZipFile) (m : Manifest) : Bool :=
  match archive.getinfo (pyStr "payload/release.json") with
  | none => false
  | some row =>
    if MAX_MANIFEST < row.fileSize then false
    else
      match archive.body row with
      | none => false
      | some body =>
        match zipExtFile c.crc32 row body 0 (MAX_MANIFEST + 1) with
        | .error _ => false
        | .ok raw =>
          match c.objectJson raw with
          | some (.obj members) =>
            decide (raw.length ≤ MAX_MANIFEST) &&
              decide (textAt members (pyStr "entry") = some (pyStr "gui-v2")) &&
              decide (textAt members (pyStr "release") = some m.release.val)
          | _ => false

def isLetterOrDigit (c : ℕ) : Bool := isDigit c || (decide (65 ≤ c) && decide (c ≤ 90)) ||
    (decide (97 ≤ c) && decide (c ≤ 122))

/-
  `[A-Za-z0-9][A-Za-z0-9._-]{0,31}-mihomo.yaml`, where the dot
  is any character but a line break.
-/
def isYamlName (s : PyStr) : Bool :=
  let label := s.take (s.length - 12)
  let tail := s.drop (s.length - 12)
  decide (13 ≤ s.length) && decide (label.length ≤ 32) && (label.take 1).all isLetterOrDigit &&
    label.all (fun c => isLetterOrDigit c || [46, 95, 45].contains c) &&
    decide (tail.take 7 = pyStr "-mihomo") &&
    decide (tail.drop 8 = pyStr "yaml") &&
    decide ((tail.drop 7).take 1 ≠ [10])

/- `name.encode('ascii')` -/
def encodeAscii (s : PyStr) : Option Bytes :=
  if s.all (fun c => decide (c < 128)) then some (s.map UInt8.ofNat)
  else none

inductive Content where
  | row (info : ZipInfo)
  | raw (bytes : Bytes)

structure Entry where
  name : PyStr
  size : ℕ
  crc : ℕ
  content : Content

def readme (m : Manifest) (yamlName : PyStr) : Bytes := utf8Encode
    ((if m.scope = .lab then pyStr "受控测试版，不能用于正式发布。\n" else []) ++ pyStr "Windows 客户端包\n\n" ++
      pyStr "1. 完整解压本包，保留同目录文件。\n" ++
      pyStr "2. 先将 " ++ yamlName ++
      pyStr " 导入并启用现有 Clash 客户端；按配置要求启用本机 API。\n" ++
      pyStr "3. 双击 P6Setup.exe 打开客户端管理；核对识别的设备后点击安装 / 更新。\n" ++
      pyStr "4. 关闭管理窗口后，后台服务继续采样和上传。\n\n" ++
      pyStr "本包包含此设备的密钥和代理配置，请私密保管，仅用于该设备。\n" ++
      pyStr "其他设备请分别登记并下载。不要将服务器证书安装到系统信任库。\n" ++
      pyStr "安装程序签名和文件完整性仍由 Windows 原生验证。\n")

/- The rows are the files of the manifest, each once. -/
def rowsMatch (rows : List ZipInfo) (m : Manifest) : Bool :=
  decide (rows.length ≤ MAX_FILES) &&
    decide (rows.length = m.files.length) &&
    decide ((rows.map ZipInfo.filename).Nodup) &&
    rows.all (fun row => (m.files.get row.filename).isSome) &&
    m.files.all (fun e => (rows.map ZipInfo.filename).contains e.1)

def rowFits (row : ZipInfo) (m : Manifest) : Bool :=
  decide (row.compressType = 0) && decide (row.flagBits % 2 = 0) &&
    decide ((m.files.get row.filename).map Record.size = some row.fileSize)

def sortRows (rows : List ZipInfo) : List ZipInfo := rows.insertionSort (fun a b => a.filename ≤ b.filename)

def ZipInfo.entry (row : ZipInfo) : Entry := ⟨row.filename, row.fileSize, row.crc, .row row⟩

def rawEntry (crc32 : Bytes → ℕ) (name : PyStr) (raw : Bytes) : Entry :=
  ⟨name, raw.length, crc32 raw, .raw raw⟩

/- `struct.pack` of numbers that may not fit -/
def pack (fields : List (ℕ × ℕ)) : Option Bytes :=
  if fields.all (fun f => decide (f.2 < 256 ^ f.1)) then
    some (packAll fields)
  else none

/- The central directory of the entries, and where it starts. -/
def centralOf : ℕ → List Entry → Option (Bytes × ℕ)
  | offset, [] => some ([], offset)
  | offset, entry :: rest => do
      let encoded ← encodeAscii entry.name
      let header ← pack (centralFields encoded entry.crc entry.size offset)
      let (central, start) ← centralOf (offset + (30 + encoded.length + entry.size)) rest
      some (header ++ encoded ++ central, start)

structure Package where
  manifest : Manifest
  archive : ZipFile
  entries : List Entry
  central : Bytes
  last : Bytes
  size : ℕ

def packaged (m : Manifest) (archive : ZipFile) (entries : List Entry) :
    Option Package := do
  let (central, offset) ← centralOf 0 entries
  let last ← pack (endFields entries.length central.length offset)
  if central.length ≤ 65536 ∧
      offset + central.length + last.length ≤ MAX_CLIENT_PACKAGE then
    some ⟨m, archive, entries, central, last, offset + central.length + last.length⟩
  else none

/- The members of a package: the signed files, and three more. -/
def packageEntries (crc32 : Bytes → ℕ)
    (m : Manifest) (rows : List ZipInfo) (bundle : Bytes) (yamlName : PyStr)
    (yaml : Bytes) : List Entry :=
  (sortRows rows).map ZipInfo.entry ++ [rawEntry crc32 (pyStr "device-bundle.zip") bundle,
      rawEntry crc32 yamlName yaml,
      rawEntry crc32 (pyStr "README-client.txt") (readme m yamlName)]

/- `WindowsClientPackage.__init__`, where it raises nothing -/
def windowsClientPackage (c : Tools F)
    (stream : Bytes) (manifest : Json F) (bundle : Bytes) (yamlName : PyStr)
    (yaml : Bytes) : Option Package := do
  let m ← validateManifestRecord manifest
  let archive ← c.zipFile stream
  if requireClientPackage c archive m &&
      decide (0 < bundle.length) &&
      decide (bundle.length ≤ MAX_BUNDLE_BYTES) &&
      isYamlName yamlName &&
      decide (0 < yaml.length) && decide (yaml.length ≤ 32768) &&
      rowsMatch archive.infolist m &&
      archive.infolist.all (fun row => rowFits row m) &&
      decide ((packageEntries c.crc32 m archive.infolist bundle yamlName yaml).length ≤ 71) then
    packaged m archive (packageEntries c.crc32 m archive.infolist bundle yamlName yaml)
  else none

-- Chunks

/- What is emitted: of a member, the central directory, its end. -/
inductive Part where
  | member (raw : Bytes)
  | central (raw : Bytes)
  | last (raw : Bytes)

def Part.bytes : Part → Bytes
  | .member raw => raw
  | .central raw => raw
  | .last raw => raw

/- The parts that were emitted, and how it ended. -/
abbrev Emitted := List Part × Except Raised Unit

/- One after the other, unless the first raises. -/
def Emitted.andThen (first : Emitted) (next : Emitted) : Emitted := match first.2 with
  | .error e => (first.1, .error e)
  | .ok _ => (first.1 ++ next.1, next.2)

/- The loop of a member; every chunk takes from what remains. -/
def copy (source : Source) : ℕ → ℕ → ℕ → Emitted
  | 0, _, _ => ([], .ok ())
  | fuel + 1, remaining, pos =>
    if remaining = 0 then ([], .ok ())
    else
      match source pos (min CHUNK remaining) with
      | .error e => ([], .error e)
      | .ok chunk =>
        if chunk = [] then ([], .error .distribution)
        else
          Emitted.andThen ([.member chunk], .ok ())
            (copy source fuel (remaining - chunk.length) (pos + chunk.length))

def emittedBytes (parts : List Part) : Bytes := parts.flatMap Part.bytes

/- No byte follows, and a signed file has its digest. -/
def checkMember (c : Tools F) (p : Package) (entry : Entry) (source : Source)
    (data : Bytes) : Except Raised Unit :=
  match source entry.size 1 with
  | .error e => .error e
  | .ok more =>
    if more ≠ [] then .error .distribution
    else
      match entry.content with
      | .raw _ => .ok ()
      | .row _ =>
        if (p.manifest.files.get entry.name).map
            (fun r => r.sha256.val) = some (c.sha256 data) then
          .ok ()
        else .error .distribution

def Package.source (crc32 : Bytes → ℕ) (p : Package) (entry : Entry) : Option Source :=
  match entry.content with
  | .raw raw => some (bytesIo raw)
  | .row row => (p.archive.body row).map (zipExtFile crc32 row)

def emitEntry (c : Tools F) (p : Package) (entry : Entry) : Emitted :=
  match (encodeAscii entry.name).bind (fun encoded =>
      (pack (localFields encoded entry.crc entry.size)).map (· ++ encoded)) with
  | none => ([], .error .distribution)
  | some header =>
    Emitted.andThen ([.member header], .ok ()) (match p.source c.crc32 entry with
      | none => ([], .error .distribution)
      | some source =>
        let copied := copy source entry.size entry.size 0
        copied.andThen ([], checkMember c p entry source (emittedBytes copied.1)))

def emitEntries (c : Tools F) (p : Package) : List Entry → Emitted
  | [] => ([], .ok ())
  | entry :: rest => (emitEntry c p entry).andThen (emitEntries c p rest)

/- `chunks`; a package is emitted once. -/
def Package.chunks (c : Tools F) (p : Package) (used : Bool) : Emitted :=
  if used then ([], .error .distribution)
  else
    (emitEntries c p p.entries).andThen ([.central p.central, .last p.last], .ok ())

end SingboxOps.Distribution
