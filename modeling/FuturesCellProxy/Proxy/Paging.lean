import FuturesCellProxy.Proxy.OperationRuns
import Mathlib.Tactic.Ring

/-! A client that reads a list page by page. The trading service is taken to answer every
list query with a slice of one list and to say truly whether records remain. -/
namespace FuturesCellProxy.Proxy
open Foundation Rpc FuturesProxy

inductive ListQuery where
  | pendingOrders | holdingOrders | historyOrders | transactionRecord
  deriving DecidableEq, Repr

/-- Whether a start index counts records or pages. -/
inductive Indexing where
  | records | pages
  deriving DecidableEq, Repr

namespace Indexing

def skip (indexing : Indexing) (batchNum startIndex : Int) : Nat :=
  match indexing with
  | records => startIndex.toNat
  | pages => (startIndex * batchNum).toNat

def next (indexing : Indexing) (batchNum startIndex : Int) : Int :=
  match indexing with
  | records => startIndex + batchNum
  | pages => startIndex + 1

/-- The index of a page that follows so many others. -/
def index (indexing : Indexing) (batchNum : Int) (earlier : Nat) : Int :=
  match indexing with
  | records => earlier * batchNum
  | pages => earlier

theorem next_index (indexing : Indexing) (batchNum : Int) (earlier : Nat) :
    indexing.next batchNum (indexing.index batchNum earlier) = indexing.index batchNum (earlier+1) := by
  cases indexing
  · simp only [next,index]
    push_cast
    ring
  · simp [next,index]

theorem skip_index (indexing : Indexing) (batchNum earlier : Nat) :
    indexing.skip batchNum (indexing.index batchNum earlier) = earlier * batchNum := by
  cases indexing <;>
  · simp only [skip,index]
    exact Int.toNat_natCast (earlier * batchNum)

def slice {α : Type} (indexing : Indexing) (list : List α) (startIndex batchNum : Int) : List α :=
  (list.drop (indexing.skip batchNum startIndex)).take batchNum.toNat

def remain {α : Type} (indexing : Indexing) (list : List α) (startIndex batchNum : Int) : Bool :=
  indexing.skip batchNum startIndex + batchNum.toNat < list.length

end Indexing

namespace ListQuery

abbrev Item : ListQuery → Type
  | pendingOrders => ActiveOrder
  | holdingOrders => Position
  | historyOrders => HisOrder
  | transactionRecord => FundInOut

abbrev Page : ListQuery → Type
  | pendingOrders | holdingOrders | historyOrders => Orders
  | transactionRecord => TransactionRecords

abbrev Entry : ListQuery → Type
  | pendingOrders | holdingOrders | historyOrders => FututesOrderInfo
  | transactionRecord => TransactionRecord

def entries : (list : ListQuery) → list.Page → List list.Entry
  | pendingOrders, page | holdingOrders, page | historyOrders, page => page.orders
  | transactionRecord, page => page.records

def hasMore : (list : ListQuery) → list.Page → Option Bool
  | pendingOrders, page | holdingOrders, page | historyOrders, page => page.hasMore
  | transactionRecord, page => page.hasMore

def entry (platform : Platform) : (list : ListQuery) → list.Item → list.Entry
  | pendingOrders => FuturesConvert.activeOrder platform
  | holdingOrders => FuturesConvert.position platform
  | historyOrders => FuturesConvert.historyOrder
  | transactionRecord => FuturesConvert.fundRecord

/-- What the trading service answers a list query from a list. -/
def served (indexing : Indexing) : (list : ListQuery) → List list.Item → (request : TradeCall) → Option request.Body
  | pendingOrders, items, .getActiveOrder req =>
    some ⟨indexing.slice items req.startIndex req.batchNum,indexing.remain items req.startIndex req.batchNum⟩
  | holdingOrders, items, .getPosition req =>
    some ⟨indexing.slice items req.startIndex req.batchNum,indexing.remain items req.startIndex req.batchNum⟩
  | historyOrders, items, .getHisOrder req =>
    some ⟨indexing.slice items req.startIndex req.batchNum,indexing.remain items req.startIndex req.batchNum⟩
  | transactionRecord, items, .getFundInOutRecord req =>
    some ⟨indexing.slice items req.index req.batchNum,indexing.remain items req.index req.batchNum⟩
  | _, _, _ => none

end ListQuery

/-- The list query is answered, and every answer is the one from the list. -/
structure Upstream (indexing : Indexing) (list : ListQuery) (items : List list.Item) (trace : Trace) : Prop where
  answered : ∃ call ∈ trace.filterMap called, call.answer.isSome
  truthful : ∀ call ∈ trace.filterMap called, ∀ response, call.answer = some response →
    response.errNo = .success ∧ ∀ body ∈ list.served indexing items call.request, response.body = body

/-- A client with a session, and how it pages. -/
structure Pager where
  futuresId : Bytes
  session : LoginSession
  indexing : Indexing
  batchNum : Nat
  positive : 0 < batchNum

section
variable (flags : Flags) (platform : Platform)

def ListQuery.query (pager : Pager) (startIndex : Int) : (list : ListQuery) → Prog (Return list.Page)
  | pendingOrders =>
    queryPendingOrders flags platform ⟨pager.futuresId,some pager.session,startIndex,pager.batchNum⟩
  | holdingOrders =>
    queryHoldingOrders flags platform ⟨pager.futuresId,some pager.session,startIndex,pager.batchNum⟩
  | historyOrders => queryHistoryOrders flags ⟨pager.futuresId,some pager.session,startIndex,pager.batchNum⟩
  | transactionRecord => queryTransactionRecord flags ⟨pager.futuresId,some pager.session,startIndex,pager.batchNum⟩

variable (pager : Pager) (list : ListQuery) (items : List list.Item)

/-- After so many pages the client has these entries and goes on from this index, unless
the last reply did not say that there are more; an absent `has_more` reads as false. -/
inductive Paging : Nat → List list.Entry → Option Int → Prop
  | begin : Paging 0 [] (some 0)
  | page (pages : Nat) (seen : List list.Entry) (startIndex : Int) (trace : Trace) (ret : Return list.Page)
      (before : Paging pages seen (some startIndex))
      (run : Run (list.query flags platform pager startIndex) trace ret)
      (upstream : Upstream pager.indexing list items trace) :
      Paging (pages+1) (seen ++ list.entries ret.body)
        (if (list.hasMore ret.body).getD false then some (pager.indexing.next pager.batchNum startIndex) else none)

/-- A client that pages to the end has every record once and in order; it comes to the end
if the service can be reached, and never goes on for more pages than there are records. -/
structure PagingComplete : Prop where
  finished : ∀ pages seen, Paging flags platform pager list items pages seen none →
    seen = items.map (list.entry platform)
  bounded : ∀ pages seen startIndex, Paging flags platform pager list items pages seen (some startIndex) →
    pages ≤ items.length
  finishes : flags.mRetryTimes ≠ 0 →
    ∃ pages, Paging flags platform pager list items pages (items.map (list.entry platform)) none

end

theorem Upstream.of_called {indexing : Indexing} {list : ListQuery} {items : List list.Item} {request : TradeCall}
    {body : request.Body} {trace : Trace} (shown : trace.filterMap called = [⟨request,some ⟨.success,body⟩⟩])
    (served : list.served indexing items request = some body) : Upstream indexing list items trace := by
  constructor
  · exact ⟨_,shown ▸ List.mem_cons_self,rfl⟩
  · intro call member response given
    obtain rfl := List.mem_singleton.mp (shown ▸ member)
    cases given
    exact ⟨rfl,fun other told => Option.some.inj (served.symm.trans told)⟩

theorem Upstream.reply {indexing : Indexing} {list : ListQuery} {items : List list.Item} {request : TradeCall}
    {bound : Nat} {answer : Option (Response request.Body)} {trace : Trace}
    (upstream : Upstream indexing list items trace)
    (attempted : Attempted (Called.mk request) bound answer (trace.filterMap called)) :
    ∃ response, answer = some response ∧ response.errNo = .success ∧
      ∀ body ∈ list.served indexing items request, response.body = body := by
  obtain ⟨call,member,answered⟩ := upstream.answered
  cases answer with
  | none =>
    obtain ⟨failures,shape,_⟩ := attempted
    rw [shape,Option.toList_none,List.map_nil,List.append_nil] at member
    obtain rfl := List.eq_of_mem_replicate member
    cases answered
  | some response =>
    obtain ⟨failures,shape,_⟩ := attempted.success
    have shown : ⟨request,some response⟩ ∈ trace.filterMap called := by simp [shape]
    exact ⟨response,rfl,upstream.truthful _ shown response rfl⟩

section
variable {flags : Flags} {platform : Platform} {pager : Pager}

/-- A page holds the slice it was asked for, and passes on whether records remain, except
for the history. -/
theorem page_body {startIndex : Int} {list : ListQuery} {items : List list.Item} {trace : Trace}
    {ret : Return list.Page} (run : Run (list.query flags platform pager startIndex) trace ret)
    (upstream : Upstream pager.indexing list items trace) :
    flags.mRetryTimes ≠ 0 ∧
      list.entries ret.body = (pager.indexing.slice items startIndex pager.batchNum).map (list.entry platform) ∧
      list.hasMore ret.body =
        if list = .historyOrders then none else some (pager.indexing.remain items startIndex pager.batchNum) := by
  cases list
  all_goals
    rcases gatedCall_run run with ⟨uncalled,_⟩ | ⟨tries,accessInfo,answer,attempted,rfl⟩
    · obtain ⟨call,member,_⟩ := upstream.answered
      simp [uncalled] at member
    · obtain ⟨⟨errNo,body⟩,rfl,rfl,served⟩ := upstream.reply attempted
      obtain rfl := served _ rfl
      exact ⟨tries,rfl,rfl⟩

variable (platform pager) in
theorem page_reaches (tries : flags.mRetryTimes ≠ 0) (list : ListQuery) (items : List list.Item) (startIndex : Int) :
    ∃ trace ret, Run (list.query flags platform pager startIndex) trace ret ∧
      Upstream pager.indexing list items trace := by
  let slice := pager.indexing.slice items startIndex pager.batchNum
  let remain := pager.indexing.remain items startIndex pager.batchNum
  cases list
  case pendingOrders =>
    obtain ⟨accessInfo,trace,run,shown⟩ := gatedCall_reaches tries tries pager.session
      (fun accessInfo => .getActiveOrder ⟨accessInfo,pager.futuresId,pager.session.uid,startIndex,pager.batchNum⟩)
      (fun _ => FuturesConvert.toProtoActiveOrders platform) .futuresReturnErr "RETURN ERROR" {body := {}}
      (fun _ => ⟨.success,slice,remain⟩)
    exact ⟨trace,_,run,.of_called shown rfl⟩
  case holdingOrders =>
    obtain ⟨accessInfo,trace,run,shown⟩ := gatedCall_reaches tries tries pager.session
      (fun accessInfo => .getPosition ⟨accessInfo,pager.session.uid,pager.futuresId,0,startIndex,pager.batchNum⟩)
      (fun _ => FuturesConvert.toProtoPosition platform) .futuresReturnErr "RETURN ERROR" {body := {}}
      (fun _ => ⟨.success,slice,remain⟩)
    exact ⟨trace,_,run,.of_called shown rfl⟩
  case historyOrders =>
    obtain ⟨accessInfo,trace,run,shown⟩ := gatedCall_reaches tries tries pager.session
      (fun accessInfo => .getHisOrder ⟨accessInfo,pager.session.uid,pager.futuresId,startIndex,pager.batchNum⟩)
      (fun _ => FuturesConvert.toProtoHistoryOrders) .futuresReturnErr "DELETE ERROR" {body := {}}
      (fun _ => ⟨.success,slice,remain⟩)
    exact ⟨trace,_,run,.of_called shown rfl⟩
  case transactionRecord =>
    obtain ⟨accessInfo,trace,run,shown⟩ := gatedCall_reaches tries tries pager.session
      (fun accessInfo => .getFundInOutRecord
        ⟨accessInfo,pager.session.uid,pager.futuresId,startIndex,pager.batchNum⟩)
      (fun _ => FuturesConvert.toProtoFundRecord) .futuresReturnErr "RETURN ERROR" {body := {}}
      (fun _ => ⟨.success,slice,remain⟩)
    exact ⟨trace,_,run,.of_called shown rfl⟩

/-- The state of a client after any number of pages of a list that is not the history. -/
theorem paging_invariant {list : ListQuery} {items : List list.Item} (other : list ≠ .historyOrders)
    {pages : Nat} {seen : List list.Entry} {next : Option Int}
    (paging : Paging flags platform pager list items pages seen next) :
    seen = (items.take (pages * pager.batchNum)).map (list.entry platform) ∧
      (next = some (pager.indexing.index pager.batchNum pages) ∧ (pages = 0 ∨ pages * pager.batchNum < items.length) ∨
        next = none ∧ items.length ≤ pages * pager.batchNum) := by
  induction paging with
  | begin =>
    refine ⟨by simp,.inl ⟨?_,.inl rfl⟩⟩
    cases pager.indexing <;> simp [Indexing.index]
  | page pages seen startIndex trace ret before run upstream ih =>
    obtain ⟨shown,⟨index,_⟩ | ⟨ended,_⟩⟩ := ih
    · obtain ⟨_,entries,more⟩ := page_body run upstream
      rw [if_neg other] at more
      obtain rfl := Option.some.inj index
      have slice : pager.indexing.slice items (pager.indexing.index pager.batchNum pages) pager.batchNum =
          (items.drop (pages * pager.batchNum)).take pager.batchNum := by
        rw [Indexing.slice,Indexing.skip_index,Int.toNat_natCast]
      have remain : pager.indexing.remain items (pager.indexing.index pager.batchNum pages) pager.batchNum =
          decide ((pages+1) * pager.batchNum < items.length) := by
        rw [Indexing.remain,Indexing.skip_index,Int.toNat_natCast,Nat.succ_mul]
      constructor
      · rw [shown,entries,slice,← List.map_append,Nat.succ_mul,List.take_add]
      · rw [more,remain,Option.getD_some,Indexing.next_index]
        by_cases left : (pages+1) * pager.batchNum < items.length
        · exact .inl ⟨by simp [left],.inr left⟩
        · exact .inr ⟨by simp [left],Nat.le_of_not_lt left⟩
    · cases ended

theorem paging_finished {list : ListQuery} {items : List list.Item} (other : list ≠ .historyOrders) {pages : Nat}
    {seen : List list.Entry} (paging : Paging flags platform pager list items pages seen none) :
    seen = items.map (list.entry platform) := by
  obtain ⟨shown,⟨ended,_⟩ | ⟨_,all⟩⟩ := paging_invariant other paging
  · cases ended
  · rw [shown,List.take_of_length_le all]

theorem paging_bounded {list : ListQuery} {items : List list.Item} (other : list ≠ .historyOrders) {pages : Nat}
    {seen : List list.Entry} {startIndex : Int}
    (paging : Paging flags platform pager list items pages seen (some startIndex)) : pages ≤ items.length := by
  obtain ⟨_,⟨_,first | remains⟩ | ⟨ended,_⟩⟩ := paging_invariant other paging
  · omega
  · have grows := Nat.le_mul_of_pos_right pages pager.positive
    omega
  · cases ended

variable (platform pager) in
/-- A client whose queries are answered comes as far as it likes, or to the end. -/
theorem paging_reaches (tries : flags.mRetryTimes ≠ 0) (list : ListQuery) (items : List list.Item) (pages : Nat) :
    (∃ done seen, Paging flags platform pager list items done seen none) ∨
      ∃ seen startIndex, Paging flags platform pager list items pages seen (some startIndex) := by
  induction pages with
  | zero => exact .inr ⟨[],0,.begin⟩
  | succ pages ih =>
    rcases ih with ended | ⟨seen,startIndex,paging⟩
    · exact .inl ended
    obtain ⟨trace,ret,run,upstream⟩ := page_reaches platform pager tries list items startIndex
    have further := Paging.page pages seen startIndex trace ret paging run upstream
    split at further
    · exact .inr ⟨_,_,further⟩
    · exact .inl ⟨_,_,further⟩

theorem pagingComplete_of_not_history {list : ListQuery} (items : List list.Item) (other : list ≠ .historyOrders) :
    PagingComplete flags platform pager list items := by
  refine ⟨fun _ _ => paging_finished other,fun _ _ _ => paging_bounded other,fun tries => ?_⟩
  rcases paging_reaches platform pager tries list items (items.length+1) with ⟨pages,seen,paging⟩ | ⟨seen,startIndex,paging⟩
  · exact ⟨pages,paging_finished other paging ▸ paging⟩
  · exact absurd (paging_bounded other paging) (by omega)

/-- The history ends with its first page, whatever remains. -/
theorem history_paging {items : List ListQuery.historyOrders.Item} {pages : Nat}
    {seen : List ListQuery.historyOrders.Entry} {next : Option Int}
    (paging : Paging flags platform pager ListQuery.historyOrders items pages seen next) :
    pages = 0 ∧ seen = [] ∧ next = some 0 ∨
      flags.mRetryTimes ≠ 0 ∧ seen = (items.take pager.batchNum).map FuturesConvert.historyOrder ∧ next = none := by
  induction paging with
  | begin => exact .inl ⟨rfl,rfl,rfl⟩
  | page pages seen startIndex trace ret before run upstream ih =>
    obtain ⟨tries,entries,more⟩ := page_body run upstream
    rw [if_pos rfl] at more
    rcases ih with ⟨rfl,rfl,start⟩ | ⟨_,_,ended⟩
    · obtain rfl := Option.some.inj start
      refine .inr ⟨tries,?_,by rw [more]; rfl⟩
      rw [entries]
      cases same : pager.indexing <;> simp [Indexing.slice,Indexing.skip,ListQuery.entry]
    · cases ended

variable (platform pager) in
theorem history_first_page (tries : flags.mRetryTimes ≠ 0) (items : List ListQuery.historyOrders.Item) :
    Paging flags platform pager ListQuery.historyOrders items 1
      ((items.take pager.batchNum).map FuturesConvert.historyOrder) none := by
  obtain ⟨trace,ret,run,upstream⟩ := page_reaches platform pager tries .historyOrders items 0
  have paging := Paging.page 0 [] 0 trace ret .begin run upstream
  rw [(page_body run upstream).2.2,if_pos rfl] at paging
  rcases history_paging paging with ⟨absurd,_⟩ | ⟨_,seen,_⟩
  · cases absurd
  · rw [seen] at paging
    exact paging

theorem history_complete_iff (items : List ListQuery.historyOrders.Item) :
    PagingComplete flags platform pager ListQuery.historyOrders items ↔
      items.length ≤ pager.batchNum ∨ flags.mRetryTimes = 0 := by
  constructor
  · intro complete
    by_contra others
    obtain ⟨more,tries⟩ := not_or.mp others
    have seen := complete.finished _ _ (history_first_page platform pager tries items)
    have lengths := congrArg List.length seen
    simp only [List.length_map,List.length_take] at lengths
    omega
  · intro condition
    have first {pages : Nat} {seen : List ListQuery.historyOrders.Entry} {startIndex : Int}
        (paging : Paging flags platform pager ListQuery.historyOrders items pages seen (some startIndex)) :
        pages ≤ items.length := by
      rcases history_paging paging with ⟨rfl,_⟩ | ⟨_,_,ended⟩
      · exact Nat.zero_le _
      · cases ended
    rcases condition with all | idle
    · refine ⟨fun pages seen paging => ?_,fun _ _ _ => first,fun tries => ⟨1,?_⟩⟩
      · rcases history_paging paging with ⟨_,_,unended⟩ | ⟨_,seen,_⟩
        · cases unended
        · rw [seen,List.take_of_length_le all]
          rfl
      · have paging := history_first_page platform pager tries items
        rwa [List.take_of_length_le all] at paging
    · refine ⟨fun pages seen paging => ?_,fun _ _ _ => first,fun tries => absurd idle tries⟩
      rcases history_paging paging with ⟨_,_,unended⟩ | ⟨tries,_⟩
      · cases unended
      · exact absurd idle tries

end

/-- A client that pages comes to have every record, once and in order, exactly when the list
is not the history, or fits into one page, or cannot be asked for at all. -/
theorem paging_complete (flags : Flags) (platform : Platform) (pager : Pager) (list : ListQuery)
    (items : List list.Item) :
    PagingComplete flags platform pager list items ↔
      list ≠ .historyOrders ∨ items.length ≤ pager.batchNum ∨ flags.mRetryTimes = 0 := by
  by_cases other : list ≠ .historyOrders
  · exact iff_of_true (pagingComplete_of_not_history items other) (.inl other)
  · obtain rfl := not_not.mp other
    rw [or_iff_right other]
    exact history_complete_iff items

def samplePager : Pager := ⟨ascii "1001",⟨ascii "token",7⟩,.records,1,by decide⟩

def twoOrders : List HisOrder :=
  [⟨1,ascii "HSI",FuturesProxy.sellSide,.ordstatTraded,0⟩,⟨2,ascii "HSI",FuturesProxy.sellSide,.ordstatTraded,0⟩]

theorem history_truncated : ¬ PagingComplete {} .sample samplePager ListQuery.historyOrders twoOrders := by
  rw [history_complete_iff]
  decide

end FuturesCellProxy.Proxy
