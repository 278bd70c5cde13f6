import OrbitalSpectra.Main
import OrbitalSpectra.Metadata.Document
import OrbitalSpectra.Proofs.Average.BlockStatistics
import OrbitalSpectra.Proofs.Average.TensorLaw
import OrbitalSpectra.Proofs.DecodedParameters
import OrbitalSpectra.Proofs.ErrorlessSamples
import OrbitalSpectra.Proofs.Koopmans.AcceptedSamples
import OrbitalSpectra.Proofs.Koopmans.Covariance
import OrbitalSpectra.Proofs.Koopmans.HalvedEntries
import OrbitalSpectra.Proofs.Koopmans.HoleSpectrum
import OrbitalSpectra.Proofs.Koopmans.RefusedDeviations
import OrbitalSpectra.Proofs.Koopmans.SpinCopies
import OrbitalSpectra.Proofs.MismatchNumbers
import OrbitalSpectra.Proofs.SafeWhitening
import OrbitalSpectra.Proofs.SampleDeviation
import OrbitalSpectra.Proofs.ScaledOccupations
import OrbitalSpectra.Proofs.SortedEigenpairs
import OrbitalSpectra.Proofs.SpinExchange
import OrbitalSpectra.Proofs.Store.LastWrite
import OrbitalSpectra.Proofs.Synthetic.ModelRecovered
import OrbitalSpectra.Proofs.TensorSteps
import OrbitalSpectra.Proofs.ValidatedParameters
