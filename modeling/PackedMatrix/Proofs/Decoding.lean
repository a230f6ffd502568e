import PackedMatrix.Archive.Bytes

namespace PackedMatrix

namespace Bytes

/-- The first number that so many bytes cannot hold. -/
def limit : Nat → Nat
  | 0 => 1
  | width + 1 => 256 * limit width

theorem toNat_ofNat {width value : Nat} (h : value < limit width) :
    toNat (ofNat width value) = value := by
  induction width generalizing value with
  | zero =>
    have : value = 0 := Nat.lt_one_iff.mp h
    simp [ofNat, toNat, this]
  | succ width ih =>
    have smaller : value / 256 < limit width := Nat.div_lt_of_lt_mul h
    have low : (UInt8.ofNat value).toNat = value % 256 := UInt8.toNat_ofNat'
    rw [ofNat, toNat, ih smaller, low]
    omega

theorem length_ofSize (value : Nat) : (ofSize value).length = 8 := length_ofNat 8 value

theorem length_ofItems {α : Type} (encode : α → List UInt8) (items : List α) :
    (ofItems encode items).length = 8 + (items.flatMap encode).length := by
  simp [ofItems, length_ofSize]

/-- A list takes at least as many bytes as it has items, if no item takes none. -/
theorem length_le_length_ofItems {α : Type} (encode : α → List UInt8) (items : List α)
    (h : ∀ item ∈ items, 0 < (encode item).length) :
    items.length ≤ (ofItems encode items).length := by
  rw [length_ofItems]
  induction items with
  | nil => simp
  | cons item rest ih =>
    have first := h item (by simp)
    have others := ih fun item member => h item (List.mem_cons_of_mem _ member)
    simp only [List.flatMap_cons, List.length_append, List.length_cons]
    omega

theorem toList_loop (bytes : ByteArray) (place : Nat) (front : List UInt8) :
    ByteArray.toList.loop bytes place front =
      front.reverse ++ bytes.data.toList.drop place := by
  fun_induction ByteArray.toList.loop bytes place front with
  | case1 place front inside ih =>
    have split : bytes.data.toList.drop place =
        bytes.data.toList[place] :: bytes.data.toList.drop (place + 1) :=
      List.drop_eq_getElem_cons _
    have here : bytes.get! place = bytes.data.toList[place] := getElem!_pos bytes.data place inside
    rw [ih, split, here]
    simp
  | case2 place front outside =>
    have behind : bytes.data.toList.length ≤ place := by simpa using outside
    simp [List.drop_eq_nil_of_le behind]

/-- The bytes of a text are those of the text only. -/
theorem fromUTF8?_toList (text : String) :
    String.fromUTF8? ⟨text.toUTF8.toList.toArray⟩ = some text := by
  have same : text.toUTF8.toList.toArray = text.toByteArray.data := by
    change (ByteArray.toList.loop text.toByteArray 0 []).toArray = _
    simp [toList_loop]
  rw [same]
  exact dif_pos text.isValidUTF8

end Bytes

namespace Decoder

variable {α β : Type}

/-- A decoder finds a value in front of any bytes behind those of the value, and leaves them. -/
def Reads (decoder : Decoder α) (bytes : List UInt8) (found : α) : Prop :=
  ∀ rest, decoder (bytes ++ rest) = .ok (found, rest)

namespace Reads

theorem pure (found : α) : Reads (Pure.pure found) [] found := fun _ => rfl

theorem bind {first : Decoder α} {next : α → Decoder β} {front back : List UInt8} {a : α} {b : β}
    (ha : first.Reads front a) (hb : (next a).Reads back b) :
    (first >>= next).Reads (front ++ back) b := by
  intro rest
  change andThen first next (front ++ back ++ rest) = _
  rw [List.append_assoc, andThen, ha (back ++ rest)]
  exact hb rest

/-- The last step of a decoder may take no bytes. -/
theorem last {first : Decoder α} {next : α → Decoder β} {bytes : List UInt8} {a : α} {b : β}
    (ha : first.Reads bytes a) (hb : (next a).Reads [] b) : (first >>= next).Reads bytes b := by
  have made := ha.bind hb
  rwa [List.append_nil] at made

theorem map {first : Decoder α} {make : α → β} {bytes : List UInt8} {a : α}
    (h : first.Reads bytes a) :
    Reads (first >>= fun found => Pure.pure (make found)) bytes (make a) :=
  h.last (pure (make a))

theorem bytes (bytes : List UInt8) (error : DecodeError) :
    (Decoder.bytes bytes.length error).Reads bytes bytes := by
  intro rest
  simp [Decoder.bytes]

theorem nat {width found : Nat} (h : found < Bytes.limit width) :
    (Decoder.nat width).Reads (Bytes.ofNat width found) found := by
  have taken := bytes (Bytes.ofNat width found) .endInNumber
  rw [Bytes.length_ofNat] at taken
  have made : (Decoder.nat width).Reads (Bytes.ofNat width found)
      (Bytes.toNat (Bytes.ofNat width found)) := taken.map
  rwa [Bytes.toNat_ofNat h] at made

theorem size {found : Nat} (h : found < UInt64.size) :
    Decoder.size.Reads (Bytes.ofSize found) found := nat h

theorem cell (found : Cell) : Decoder.cell.Reads (Bytes.ofCell found) found := by
  have bits : (Decoder.nat 8).Reads (Bytes.ofNat 8 found.bits.toNat) found.bits.toNat :=
    nat found.bits.toNat_lt_size
  have made : Decoder.cell.Reads (Bytes.ofCell found) ⟨UInt64.ofNat found.bits.toNat⟩ := bits.map
  rwa [UInt64.ofNat_toNat] at made

theorem collect {item : Decoder α} {encode : α → List UInt8} {found : List α} (before : Array α)
    (h : ∀ value ∈ found, item.Reads (encode value) value) :
    (Decoder.collect item found.length before).Reads (found.flatMap encode)
      (before ++ found.toArray) := by
  induction found generalizing before with
  | nil =>
    intro rest
    simp [Decoder.collect, Decoder.value]
  | cons first others ih =>
    intro rest
    have one := h first (by simp) (others.flatMap encode ++ rest)
    have more := ih (before.push first) (fun value member => h value (by simp [member])) rest
    rw [List.flatMap_cons, List.append_assoc, List.length_cons, Decoder.collect]
    simp only [one, more]
    simp

theorem items {item : Decoder α} {encode : α → List UInt8} {found : List α}
    (count : found.length < UInt64.size) (h : ∀ value ∈ found, item.Reads (encode value) value) :
    (Decoder.items item).Reads (Bytes.ofItems encode found) found.toArray := by
  have all := collect #[] h
  rw [Array.empty_append] at all
  exact (size count).bind all

theorem array {item : Decoder α} {encode : α → List UInt8} {found : Array α}
    (count : found.size < UInt64.size) (h : ∀ value ∈ found, item.Reads (encode value) value) :
    (Decoder.items item).Reads (Bytes.ofItems encode found.toList) found :=
  items (by simpa using count) fun value member => h value (by simpa using member)

/-- Words of a fixed width are read back as their numbers. -/
theorem words {ω : Type} (width : Nat) {toNat : ω → Nat} {found : Array ω}
    (count : found.size < UInt64.size) (bound : ∀ word, toNat word < Bytes.limit width) :
    (Decoder.items (Decoder.nat width)).Reads
      (Bytes.ofItems (fun word => Bytes.ofNat width (toNat word)) found.toList)
      (found.map toNat) := by
  have numbers : ∀ value ∈ found.map toNat,
      (Decoder.nat width).Reads (Bytes.ofNat width value) value := by
    intro value member
    obtain ⟨word, _, rfl⟩ := Array.mem_map.mp member
    exact nat (bound word)
  have all := array (by simpa using count) numbers
  simpa [Bytes.ofItems, List.flatMap_map] using all

/-- Single bytes are read back as their numbers. -/
theorem octets {found : Array UInt8} (count : found.size < UInt64.size) :
    (Decoder.items (Decoder.nat 1)).Reads (Bytes.ofItems (fun byte => [byte]) found.toList)
      (found.map UInt8.toNat) := by
  have all := words 1 count UInt8.toNat_lt_size
  simpa [Bytes.ofNat] using all

theorem choice {count number : Nat} {pick : Nat → Option α} {found : α}
    (small : number < Bytes.limit 4) (picked : pick number = some found) :
    (Decoder.choice count pick).Reads (Bytes.ofChoice number) found := by
  refine (nat small).last ?_
  simp only [picked]
  exact pure found

/-- The number of an alternative is followed by the fields of that alternative. -/
theorem alternative {count : Nat} (number : Nat) {pick : Nat → Option (Decoder α)}
    {fields : Decoder α} {bytes : List UInt8} {found : α} (small : number < Bytes.limit 4)
    (picked : pick number = some fields) (h : fields.Reads bytes found) :
    Reads (Decoder.choice count pick >>= fun fields => fields) (Bytes.ofChoice number ++ bytes)
      found :=
  (choice small picked).bind h

theorem text {found : String} (h : found.toUTF8.toList.length < UInt64.size) :
    Decoder.text.Reads (Bytes.ofText found) found := by
  have bytesOf : found.toUTF8.toList.flatMap (fun byte => [byte]) = found.toUTF8.toList := by simp
  rw [Bytes.ofText, Bytes.ofItems, bytesOf]
  refine (size h).bind ((bytes found.toUTF8.toList .endInText).last ?_)
  simp only [Bytes.fromUTF8?_toList]
  exact pure found

end Reads

/-- A decoder may fail in front of any bytes behind these, but if it finds a value there, the value
is as expected and those bytes are left. -/
def MayRead (decoder : Decoder α) (bytes : List UInt8) (expected : α → Prop) : Prop :=
  ∀ rest found left, decoder (bytes ++ rest) = .ok (found, left) → expected found ∧ left = rest

theorem Reads.mayRead {decoder : Decoder α} {bytes : List UInt8} {found : α}
    (h : decoder.Reads bytes found) {expected : α → Prop} (meets : expected found) :
    decoder.MayRead bytes expected := by
  intro rest other left run
  cases (h rest).symm.trans run
  exact ⟨meets, rfl⟩

theorem MayRead.bind {first : Decoder α} {next : α → Decoder β} {front back : List UInt8}
    {middle : α → Prop} {expected : β → Prop} (ha : first.MayRead front middle)
    (hb : ∀ found, middle found → (next found).MayRead back expected) :
    (first >>= next).MayRead (front ++ back) expected := by
  intro rest found left run
  change andThen first next (front ++ back ++ rest) = _ at run
  rw [List.append_assoc, andThen] at run
  split at run
  next between after taken =>
    obtain ⟨meets, rfl⟩ := ha _ _ _ taken
    exact hb between meets _ _ _ run
  next => cases run

theorem Reads.bind_mayRead {first : Decoder α} {next : α → Decoder β} {front back : List UInt8}
    {a : α} {expected : β → Prop} (ha : first.Reads front a)
    (hb : (next a).MayRead back expected) : (first >>= next).MayRead (front ++ back) expected :=
  (ha.mayRead rfl).bind fun _ same => same ▸ hb

theorem Reads.last_mayRead {first : Decoder α} {next : α → Decoder β} {bytes : List UInt8} {a : α}
    {expected : β → Prop} (ha : first.Reads bytes a) (hb : (next a).MayRead [] expected) :
    (first >>= next).MayRead bytes expected := by
  have made := ha.bind_mayRead hb
  rwa [List.append_nil] at made

end Decoder

end PackedMatrix
