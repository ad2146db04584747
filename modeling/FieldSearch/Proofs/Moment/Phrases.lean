import FieldSearch.Moment.Relative
import FieldSearch.Proofs.Text.Digits
import Mathlib.Algebra.Order.Field.Rat
import Mathlib.Tactic.Linarith
import Mathlib.Tactic.NormNum

/-!
# Distances in words

The phrases divide the time line into eleven spans, one behind the other, and the counted ones say
how many of their units a distance has, to the nearest. So a longer distance never has an earlier
phrase. A span should begin at one and a half of its units, where the count is two; the span of
months begins at 45 days, which are fewer than one and a half months of 30.4 days.
-/

namespace FieldSearch

/-! ## Nearest whole numbers -/

theorem roundEven_bounds (num : Nat) {den : Nat} (hden : 0 < den) :
    2 * num ≤ den * (2 * Number.roundEven num den + 1) ∧
      den * (2 * Number.roundEven num den) ≤ 2 * num + den := by
  have hsplit := Nat.div_add_mod num den
  have hrest := Nat.mod_lt num hden
  have htwice : den * (2 * (num / den)) = 2 * (den * (num / den)) := Nat.mul_left_comm ..
  unfold Number.roundEven
  dsimp only
  split
  · rw [Nat.mul_add, htwice]
    omega
  · have hnext : den * (2 * (num / den + 1)) = 2 * (den * (num / den)) + 2 * den := by
      rw [Nat.mul_add, Nat.mul_add, htwice]
      omega
    rw [Nat.mul_add, hnext]
    omega

namespace Duration

theorem ofNat_eq (n : Nat) : (ofNat n : Rat) = n := Rat.mkRat_one (n : Int)

theorem abs_nearest_sub_le {x : Rat} (hx : 0 ≤ x) : |(nearest x : Rat) - x| ≤ 1 / 2 := by
  have hnum : ((x.num.toNat : Nat) : Int) = x.num := Int.toNat_of_nonneg (Rat.num_nonneg.mpr hx)
  have hscaled : x * x.den = (x.num.toNat : Nat) := by
    rw [Rat.mul_den_eq_num, ← hnum]
    rfl
  have hden : (0 : Rat) < x.den := by exact_mod_cast x.den_pos
  obtain ⟨hlow, hhigh⟩ := roundEven_bounds x.num.toNat x.den_pos
  have hlow' : x.den * (2 * x) ≤ x.den * (2 * (nearest x : Rat) + 1) := by
    have hcast : 2 * ((x.num.toNat : Nat) : Rat) ≤ x.den * (2 * (nearest x : Rat) + 1) := by
      exact_mod_cast hlow
    linarith
  have hhigh' : x.den * (2 * (nearest x : Rat)) ≤ x.den * (2 * x + 1) := by
    have hcast : x.den * (2 * (nearest x : Rat)) ≤ 2 * ((x.num.toNat : Nat) : Rat) + x.den := by
      exact_mod_cast hhigh
    linarith
  have hlow := le_of_mul_le_mul_left hlow' hden
  have hhigh := le_of_mul_le_mul_left hhigh' hden
  rw [abs_le]
  constructor <;> linarith

theorem nearest_mono {x y : Rat} (hx : 0 ≤ x) (h : x ≤ y) : nearest x ≤ nearest y := by
  by_contra hlt
  have hnext : (nearest y : Rat) + 1 ≤ nearest x := by exact_mod_cast Nat.lt_of_not_le hlt
  have hxerror := (abs_le.mp (abs_nearest_sub_le hx)).2
  have hyerror := (abs_le.mp (abs_nearest_sub_le (hx.trans h))).1
  -- both are as far away as they may be, so the numbers are equal
  have heq : x = y := by linarith
  exact hlt (by rw [heq])

theorem two_le_nearest_iff {x : Rat} (hx : 0 ≤ x) : 2 ≤ nearest x ↔ 3 / 2 ≤ x := by
  have hhalf : nearest (3 / 2 : Rat) = 2 := by decide +kernel
  constructor
  · intro htwo
    have htwo' : (2 : Rat) ≤ nearest x := by exact_mod_cast htwo
    have herror := (abs_le.mp (abs_nearest_sub_le hx)).2
    linarith
  · intro hle
    calc 2 = nearest (3 / 2 : Rat) := hhalf.symm
      _ ≤ nearest x := nearest_mono (by norm_num) hle

end Duration

/-! ## Units and counts -/

inductive TimeUnit where
  | minute
  | hour
  | day
  | month
  | year
deriving DecidableEq

namespace TimeUnit

def seconds : TimeUnit → Rat
  | minute => 60
  | hour => 60 * 60
  | day => 60 * 60 * 24
  | month => 60 * 60 * 24 * (304 / 10)
  | year => 60 * 60 * 24 * (36525 / 100)

def plural : TimeUnit → Text
  | minute => "minutes"
  | hour => "hours"
  | day => "days"
  | month => "months"
  | year => "years"

theorem seconds_pos (u : TimeUnit) : 0 < u.seconds := by
  cases u <;> norm_num [seconds]

end TimeUnit

namespace Phrase

open Duration (nearest)

/-- The place in the order of the phrases, whatever their counts. -/
def rank : Phrase → Nat
  | seconds => 0
  | minute => 1
  | minutes _ => 2
  | hour => 3
  | hours _ => 4
  | day => 5
  | days _ => 6
  | month => 7
  | months _ => 8
  | year => 9
  | years _ => 10

def counted? : Phrase → Option (Nat × TimeUnit)
  | minutes n => some (n, .minute)
  | hours n => some (n, .hour)
  | days n => some (n, .day)
  | months n => some (n, .month)
  | years n => some (n, .year)
  | seconds | minute | hour | day | month | year => none

/-- The unit that the phrases of a rank count, if they count one. -/
def unitAt : Nat → Option TimeUnit
  | 2 => some .minute
  | 4 => some .hour
  | 6 => some .day
  | 8 => some .month
  | 10 => some .year
  | _ => none

/-- Where the span of a rank begins, in seconds. -/
def start : Nat → Rat
  | 0 => 0
  | 1 => 45
  | 2 => 90
  | 3 => 45 * 60
  | 4 => 90 * 60
  | 5 => 22 * (60 * 60)
  | 6 => 36 * (60 * 60)
  | 7 => 26 * (60 * 60 * 24)
  | 8 => 45 * (60 * 60 * 24)
  | 9 => 320 * (60 * 60 * 24)
  | _ => 548 * (60 * 60 * 24)

/-- The other phrase does not stand before this one: it has a later rank, or the same one and a
count that is not smaller. -/
def Precedes (p q : Phrase) : Prop :=
  p.rank < q.rank ∨ p.rank = q.rank ∧ ∀ n u, p.counted? = some (n, u) →
    ∃ k, q.counted? = some (k, u) ∧ n ≤ k

theorem counted?_map (p : Phrase) : p.counted?.map Prod.snd = unitAt p.rank := by
  cases p <;> rfl

theorem start_mono : ∀ j ≤ 10, ∀ i ≤ j, start i ≤ start j := by
  decide +kernel

/-! ## Spans -/

/-- A distance that lies in the span of a phrase, which has the right count. -/
structure Fits (s : Rat) (p : Phrase) : Prop where
  begun : start p.rank ≤ s
  before : p.rank < 10 → s < start (p.rank + 1)
  count_eq : ∀ n u, p.counted? = some (n, u) → n = nearest (s / u.seconds)

theorem ofSeconds_eq (s : Rat) : ofSeconds s =
    if s < 45 then seconds
    else if s < 90 then minute
    else if s < 45 * 60 then minutes (nearest (s / TimeUnit.minute.seconds))
    else if s < 90 * 60 then hour
    else if s < 22 * (60 * 60) then hours (nearest (s / TimeUnit.hour.seconds))
    else if s < 36 * (60 * 60) then day
    else if s < 26 * (60 * 60 * 24) then days (nearest (s / TimeUnit.day.seconds))
    else if s < 45 * (60 * 60 * 24) then month
    else if s < 320 * (60 * 60 * 24) then months (nearest (s / TimeUnit.month.seconds))
    else if s < 548 * (60 * 60 * 24) then year
    else years (nearest (s / TimeUnit.year.seconds)) := by
  have hmonth : (Duration.ofDecimal 304 1 : Rat) = 304 / 10 := by decide +kernel
  have hyear : (Duration.ofDecimal 36525 2 : Rat) = 36525 / 100 := by decide +kernel
  have hminute : (0 : Rat) < 60 := by norm_num
  have hhour : (0 : Rat) < 60 * 60 := by norm_num
  have hday : (0 : Rat) < 60 * 60 * 24 := by norm_num
  simp only [ofSeconds, Duration.ofNat_eq, hmonth, hyear, Nat.cast_ofNat, div_div,
    div_lt_iff₀ hminute, div_lt_iff₀ hhour, div_lt_iff₀ hday, TimeUnit.seconds]

section

variable {s : Rat} {p q : Phrase}

theorem fits_ite {a : Rat} (hp : s < a → Fits s p) (hq : a ≤ s → Fits s q) :
    Fits s (if s < a then p else q) := by
  split
  · exact hp ‹_›
  · exact hq (not_lt.mp ‹_›)

theorem fits_counted {u : TimeUnit} (hp : p.counted? = some (nearest (s / u.seconds), u))
    (hbegun : start p.rank ≤ s) (hbefore : p.rank < 10 → s < start (p.rank + 1)) : Fits s p := by
  refine ⟨hbegun, hbefore, ?_⟩
  intro n v hv
  cases hp.symm.trans hv
  rfl

theorem fits_ofSeconds (hs : 0 ≤ s) : Fits s (ofSeconds s) := by
  rw [ofSeconds_eq]
  refine fits_ite (fun h => ⟨hs, fun _ => h, nofun⟩) fun hminute => ?_
  refine fits_ite (fun h => ⟨hminute, fun _ => h, nofun⟩) fun hminutes => ?_
  refine fits_ite (fun h => fits_counted rfl hminutes fun _ => h) fun hhour => ?_
  refine fits_ite (fun h => ⟨hhour, fun _ => h, nofun⟩) fun hhours => ?_
  refine fits_ite (fun h => fits_counted rfl hhours fun _ => h) fun hday => ?_
  refine fits_ite (fun h => ⟨hday, fun _ => h, nofun⟩) fun hdays => ?_
  refine fits_ite (fun h => fits_counted rfl hdays fun _ => h) fun hmonth => ?_
  refine fits_ite (fun h => ⟨hmonth, fun _ => h, nofun⟩) fun hmonths => ?_
  refine fits_ite (fun h => fits_counted rfl hmonths fun _ => h) fun hyear => ?_
  refine fits_ite (fun h => ⟨hyear, fun _ => h, nofun⟩) fun hyears => ?_
  exact fits_counted rfl hyears fun hlast => absurd hlast (Nat.lt_irrefl 10)

theorem rank_le (p : Phrase) : p.rank ≤ 10 := by
  cases p <;> simp [rank]

/-! ## Order -/

variable {t : Rat}

theorem Fits.rank_le (hp : Fits s p) (hq : Fits t q) (h : s ≤ t) : p.rank ≤ q.rank := by
  by_contra hlt
  have hnext : q.rank + 1 ≤ p.rank := Nat.lt_of_not_le hlt
  have hlast : q.rank < 10 := Nat.lt_of_lt_of_le hnext p.rank_le
  have hstart : start (q.rank + 1) ≤ start p.rank := start_mono _ p.rank_le _ hnext
  linarith [hp.begun, hq.before hlast]

theorem Fits.precedes (hp : Fits s p) (hq : Fits t q) (hs : 0 ≤ s) (h : s ≤ t) :
    p.Precedes q := by
  obtain hlt | heq := Nat.lt_or_eq_of_le (hp.rank_le hq h)
  · exact .inl hlt
  · refine .inr ⟨heq, ?_⟩
    intro n u hcounted
    have hunit : q.counted?.map Prod.snd = some u := by
      rw [counted?_map, ← heq, ← counted?_map, hcounted]
      rfl
    obtain ⟨⟨k, v⟩, hq', rfl⟩ := Option.map_eq_some_iff.mp hunit
    refine ⟨k, hq', ?_⟩
    rw [hp.count_eq n v hcounted, hq.count_eq k v hq']
    have hpos := v.seconds_pos
    exact Duration.nearest_mono (div_nonneg hs hpos.le) (div_le_div_of_nonneg_right h hpos.le)

/-! ## Counts -/

/-- At least 45 days, but less than one and a half months. -/
def CountsOneMonth (s : Rat) : Prop :=
  45 * TimeUnit.day.seconds ≤ s ∧ s < 3 / 2 * TimeUnit.month.seconds

/-- Every span but that of months begins at one and a half of its units. -/
theorem start_of_counted {n : Nat} {u : TimeUnit} (h : p.counted? = some (n, u)) :
    p.rank = 8 ∧ u = .month ∨ p.rank ≠ 8 ∧ 3 / 2 * u.seconds ≤ start p.rank := by
  cases p with
  | months k =>
    cases h
    exact .inl ⟨rfl, rfl⟩
  | minutes k | hours k | days k | years k =>
    cases h
    refine .inr ⟨by simp [rank], ?_⟩
    simp only [rank, start, TimeUnit.seconds]
    norm_num
  | seconds | minute | hour | day | month | year => cases h

theorem Fits.rank_of_countsOneMonth (hp : Fits s p) (h : CountsOneMonth s) : p.rank = 8 := by
  obtain ⟨hlow, hhigh⟩ := h
  obtain hlt | heq | hgt := Nat.lt_trichotomy p.rank 8
  · have hstart : start (p.rank + 1) ≤ start 8 := start_mono 8 (by decide) _ hlt
    have hbefore := hp.before (hlt.trans (by decide))
    exact absurd (hbefore.trans_le hstart) (not_lt.mpr hlow)
  · exact heq
  · have hstart : start 9 ≤ start p.rank := start_mono _ p.rank_le 9 hgt
    have hshort : 3 / 2 * TimeUnit.month.seconds < start 9 := by decide +kernel
    linarith [hp.begun]

theorem Fits.count {n : Nat} {u : TimeUnit} (hp : Fits s p) (hs : 0 ≤ s)
    (h : p.counted? = some (n, u)) :
    |(n : Rat) - s / u.seconds| ≤ 1 / 2 ∧ (2 ≤ n ↔ ¬ CountsOneMonth s) := by
  have hpos := u.seconds_pos
  have hnonneg : 0 ≤ s / u.seconds := div_nonneg hs hpos.le
  rw [hp.count_eq n u h, Duration.two_le_nearest_iff hnonneg, le_div_iff₀ hpos]
  refine ⟨Duration.abs_nearest_sub_le hnonneg, ?_⟩
  obtain ⟨hrank, rfl⟩ | ⟨hrank, hstart⟩ := start_of_counted h
  · have hbegun := hp.begun
    rw [hrank] at hbegun
    constructor
    · intro hle hshort
      exact absurd hshort.2 (not_lt.mpr hle)
    · intro hnot
      exact not_lt.mp fun hlt => hnot ⟨hbegun, hlt⟩
  · exact iff_of_true (hstart.trans hp.begun) fun hshort => hrank (hp.rank_of_countsOneMonth hshort)

theorem Fits.eq_one_month (hp : Fits s p) (h : CountsOneMonth s) : p = months 1 := by
  have hrank := hp.rank_of_countsOneMonth h
  obtain ⟨hlow, hhigh⟩ := h
  have hday : (0 : Rat) ≤ 45 * TimeUnit.day.seconds := by decide +kernel
  cases p with
  | months n =>
    obtain ⟨herror, htwo⟩ := hp.count (hday.trans hlow) rfl
    have hfew : n < 2 := not_le.mp fun hle => htwo.mp hle ⟨hlow, hhigh⟩
    have hone : (1 : Rat) / 2 < s / TimeUnit.month.seconds := by
      rw [lt_div_iff₀ TimeUnit.month.seconds_pos]
      exact lt_of_lt_of_le (by decide +kernel) hlow
    have hsome : (0 : Rat) < n := by linarith [(abs_le.mp herror).1]
    have hpos : 0 < n := by exact_mod_cast hsome
    obtain rfl : n = 1 := by omega
    rfl
  | _ => cases hrank

end

/-! ## Texts -/

theorem ofNat_append_inj {n k : Nat} {a b : Text}
    (h : Text.ofNat n ++ ' ' :: a = Text.ofNat k ++ ' ' :: b) : n = k ∧ a = b := by
  have hblank : ∀ n, ' ' ∉ Text.ofNat n := by
    intro n hmem
    cases Text.isDigit_of_mem_ofNat hmem
  have hcut := congrArg (Text.cut ' ') h
  rw [Text.cut_append (hblank n), Text.cut_append (hblank k), Option.some.injEq,
    Prod.mk.injEq] at hcut
  have hvalue := congrArg (Nat.ofDigitChars 10 · 0) hcut.1
  simp only [Text.ofDigitChars_ofNat] at hvalue
  exact ⟨hvalue, hcut.2⟩

theorem plural_injective {u v : TimeUnit} (h : u.plural = v.plural) : u = v := by
  revert h
  cases u <;> cases v <;> decide

theorem text_of_counted {p : Phrase} {n : Nat} {u : TimeUnit} (h : p.counted? = some (n, u)) :
    p.text = Text.ofNat n ++ (" " ++ u.plural) := by
  cases p with
  | seconds | minute | hour | day | month | year => cases h
  | minutes k | hours k | days k | months k | years k =>
    cases h
    rfl

theorem text_of_not_counted {p : Phrase} (h : p.counted? = none) :
    ∃ rest, p.text = 'a' :: rest := by
  cases p with
  | seconds | minute | hour | day | month | year => exact ⟨_, rfl⟩
  | minutes k | hours k | days k | months k | years k => cases h

/-- The counted phrases are the texts that begin with a number and go on with a unit. -/
theorem text_eq_iff {p : Phrase} {n : Nat} {u : TimeUnit} :
    p.text = Text.ofNat n ++ (" " ++ u.plural) ↔ p.counted? = some (n, u) := by
  refine ⟨?_, text_of_counted⟩
  intro h
  cases hcounted : p.counted? with
  | none =>
    obtain ⟨rest, htext⟩ := text_of_not_counted hcounted
    obtain ⟨d, ds, hdigits⟩ := Text.ofNat_eq_cons n
    rw [htext, hdigits] at h
    obtain ⟨rfl, -⟩ := List.cons.inj h
    cases Text.isDigit_of_mem_ofNat (hdigits ▸ List.mem_cons_self : 'a' ∈ Text.ofNat n)
  | some counted =>
    obtain ⟨k, v⟩ := counted
    rw [text_of_counted hcounted] at h
    obtain ⟨rfl, hplural⟩ := ofNat_append_inj h
    rw [plural_injective hplural]

end Phrase

/-! ## Moments -/

namespace Moment

open Phrase (ofSeconds CountsOneMonth)

/-- The seconds between two moments, whichever is the later one. -/
def distance (m now : Moment) : Rat := |(now.instant : Rat) - m.instant| / 1000000

theorem relative_eq (m : Moment) {now : Moment} {offset : Int} (h : now.offset = some offset) :
    relative Rat (some m) now = .ok
      (if now.instant < m.instant then "in " ++ (ofSeconds (m.distance now)).text
        else (ofSeconds (m.distance now)).text ++ " ago") := by
  have hdistance : (Duration.ofDecimal (now.instant - m.instant).natAbs 6 : Rat) =
      m.distance now := by
    show mkRat ((now.instant - m.instant).natAbs : Nat) 1000000 = _
    rw [Rat.mkRat_eq_div, distance, Int.cast_natCast, Nat.cast_natAbs, Int.cast_abs, Int.cast_sub]
    norm_num
  simp only [relative, h, describeDistance, hdistance, sub_lt_zero]

/-- **Distances in words.** All moments at one distance from now are described by the same words,
before and after it. Where these count a unit, the count is the nearest one, and at least two unless
45 days or more make less than one and a half months: then it is one month. A longer distance never
has words that stand before those of a shorter one. -/
theorem phrases_accurate (s : Rat) (hs : 0 ≤ s) :
    (∀ (m now : Moment) (offset : Int), now.offset = some offset → m.distance now = s →
      relative Rat (some m) now = .ok
        (if now.instant < m.instant then "in " ++ (ofSeconds s).text
          else (ofSeconds s).text ++ " ago")) ∧
    (∀ n (u : TimeUnit), (ofSeconds s).text = Text.ofNat n ++ (" " ++ u.plural) →
      |(n : Rat) - s / u.seconds| ≤ 1 / 2 ∧ (2 ≤ n ↔ ¬ CountsOneMonth s)) ∧
    (CountsOneMonth s → (ofSeconds s).text = "1 months") ∧
    ∀ t, s ≤ t → (ofSeconds s).Precedes (ofSeconds t) := by
  have hfits := Phrase.fits_ofSeconds hs
  refine ⟨?_, ?_, ?_, ?_⟩
  · rintro m now offset h rfl
    exact relative_eq m h
  · intro n u htext
    exact hfits.count hs (Phrase.text_eq_iff.mp htext)
  · intro hshort
    rw [hfits.eq_one_month hshort]
    rfl
  · intro t h
    exact hfits.precedes (Phrase.fits_ofSeconds (hs.trans h)) hs h

def noon (year month day : Nat) : Moment := ⟨⟨year, month, day⟩, ⟨12, 0, 0, 0⟩, some 0⟩

theorem phrases_accurate_days :
    (0 : Rat) ≤ 259200 ∧
      relative Rat (some (noon 2024 6 4)) (noon 2024 6 1) = .ok "in 3 days" ∧
      |((3 : Nat) : Rat) - 259200 / TimeUnit.day.seconds| ≤ 1 / 2 ∧
      (ofSeconds (259200 : Rat)).Precedes (ofSeconds (259201 : Rat)) := by
  have hnonneg : (0 : Rat) ≤ 259200 := by norm_num
  obtain ⟨hphrase, hcount, -, hlater⟩ := phrases_accurate 259200 hnonneg
  have hdistance : (noon 2024 6 4).distance (noon 2024 6 1) = 259200 := by decide +kernel
  have htext : (ofSeconds (259200 : Rat)).text = "3 days" := by decide +kernel
  have hrelative := hphrase (noon 2024 6 4) (noon 2024 6 1) 0 rfl hdistance
  rw [htext, if_pos (by decide)] at hrelative
  exact ⟨hnonneg, hrelative, (hcount 3 .day htext).1, hlater 259201 (by norm_num)⟩

/-- After 45 days one month is counted like several. -/
theorem one_month_counted :
    relative Rat (some (noon 2024 4 17)) (noon 2024 6 1) = .ok "1 months ago" ∧
      ¬ ∀ (m now : Moment) n (u : TimeUnit),
        relative Rat (some m) now = .ok (Text.ofNat n ++ (" " ++ u.plural) ++ " ago") → 2 ≤ n := by
  have htext : describeDistance Rat ((noon 2024 6 1).instant - (noon 2024 4 17).instant) =
      "1 months ago" := by
    decide +kernel
  have hmonth : relative Rat (some (noon 2024 4 17)) (noon 2024 6 1) = .ok "1 months ago" :=
    congrArg Except.ok htext
  refine ⟨hmonth, ?_⟩
  intro h
  have htwo : 2 ≤ 1 := h (noon 2024 4 17) (noon 2024 6 1) 1 .month hmonth
  exact absurd htwo (by decide)

end Moment

end FieldSearch
