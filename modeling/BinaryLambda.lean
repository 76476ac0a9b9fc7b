import BinaryLambda.Error.Record
import BinaryLambda.Proofs.CacheSoundness
import BinaryLambda.Proofs.CallOrder
import BinaryLambda.Proofs.CountEffect
import BinaryLambda.Proofs.CountedClass
import BinaryLambda.Proofs.DenseExport
import BinaryLambda.Proofs.EmptyClasses
import BinaryLambda.Proofs.FixedWidth
import BinaryLambda.Proofs.FlatWarming
import BinaryLambda.Proofs.HistoryIndependence
import BinaryLambda.Proofs.IndependentCursors
import BinaryLambda.Proofs.LargerBound
import BinaryLambda.Proofs.LookupCount
import BinaryLambda.Proofs.Overflow
import BinaryLambda.Proofs.Rank.Bijection
import BinaryLambda.Proofs.Rank.Order
import BinaryLambda.Proofs.Rank.RankTotal
import BinaryLambda.Proofs.Rank.Recursion
import BinaryLambda.Proofs.Rank.UnrankTotal
import BinaryLambda.Proofs.RegionClosure
import BinaryLambda.Proofs.SafeSize
import BinaryLambda.Proofs.Sequence.Views
import BinaryLambda.Proofs.Session
import BinaryLambda.Proofs.Term.FreeBound
import BinaryLambda.Proofs.Term.PrefixCode
import BinaryLambda.Proofs.UniformSampling
import BinaryLambda.Term.Code
