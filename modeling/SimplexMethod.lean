import SimplexMethod.Main
import SimplexMethod.Worksheet
import SimplexMethod.Proofs.Verdicts
import SimplexMethod.Proofs.Bland
import SimplexMethod.Proofs.Lexicographic
import SimplexMethod.Proofs.ConsistentBasis
import SimplexMethod.Proofs.ExtremePoints
import SimplexMethod.Proofs.DualPrices
import SimplexMethod.Proofs.ObjectiveProgress
import SimplexMethod.Proofs.PathIndependence
import SimplexMethod.Proofs.SignSymmetry
import SimplexMethod.Proofs.SignedZeros
import SimplexMethod.Proofs.SenseSymmetry
import SimplexMethod.Proofs.Observation
import SimplexMethod.Proofs.Limits
import SimplexMethod.Proofs.Alarms
import SimplexMethod.Proofs.Bookkeeping
import SimplexMethod.Proofs.RatioTest
import SimplexMethod.Proofs.NearTies
import SimplexMethod.Proofs.GuardedAccess
import SimplexMethod.Proofs.GuardedOrigin
import SimplexMethod.Proofs.GuardedChecks
import SimplexMethod.Proofs.GuardedTables
import SimplexMethod.Proofs.IndexSafety
import SimplexMethod.Proofs.SpecialValues
import SimplexMethod.Proofs.InfiniteRatios
import SimplexMethod.Proofs.Thresholds
import SimplexMethod.Proofs.Overstepping
import SimplexMethod.Proofs.DamagedTableaux
import SimplexMethod.Proofs.Admission
import SimplexMethod.Proofs.Divisors
import SimplexMethod.Proofs.Listings
import SimplexMethod.Proofs.TableWidths
